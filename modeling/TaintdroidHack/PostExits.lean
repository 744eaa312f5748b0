import TaintdroidHack.PostLoops

/-! Every way out of `send_http_post`, with what the network answered on the
way there and what the call then holds and has sent. -/

namespace TaintdroidHack

open Framing Transfer

variable {env : NetEnv} {m : Bytes} {s : NetState}

structure Connected (env : NetEnv) (host : Bytes) (port : Int) : Prop where
  socket : 0 ≤ env.socket
  peer : ∃ server, env.gethostbyname host = some server ∧
    0 ≤ env.connect (serverAddress server port)

/-- The send loop was left without an error: with the whole request on the
wire, or with less of it after a write that took nothing. -/
def Sent (env : NetEnv) (m wire : Bytes) : Prop :=
  Fills env.writes m.length ∧ wire = m ∨
    Stops env.writes m.length ∧ ∃ k < m.length, wire = m.take k

def Received (env : NetEnv) (response : Bytes) : Prop :=
  ∃ k, Progress (readSizes env) k ∧ amount (readSizes env) k < 4095 ∧ readSizes env k = some 0 ∧
    response = arrived env k ++ List.replicate (4096 - amount (readSizes env) k) 0

theorem Sent.not_fails {wire : Bytes} (h : Sent env m wire) : ¬ Fails env.writes m.length := by
  rcases h with ⟨hf, _⟩ | ⟨hs, _⟩
  · exact fun he => he.not_fills hf
  · exact hs.not_fails

theorem Received.stops {response : Bytes} (h : Received env response) :
    Stops (readSizes env) 4095 := by
  obtain ⟨k, hp, hlt, hf, _⟩ := h
  exact ⟨k, hp, hlt, hf⟩

structure SendExit (env : NetEnv) (m : Bytes) (s : NetState) (out : Outcome NetState) : Prop where
  resources : resources out.state.trace = resources s.trace
  readCalls : out.state.readCalls = s.readCalls
  wire : out.state.wire <+: m
  fails : out.exit = .error → Fails env.writes m.length
  sent : out.exit ≠ .error → Sent env m out.state.wire

structure ReceiveExit (env : NetEnv) (s : NetState) (inp : Outcome NetState) : Prop where
  resources : resources inp.state.trace = resources s.trace
  wire : inp.state.wire = s.wire
  fails : inp.exit = .error → Fails (readSizes env) 4095
  fills : inp.exit ≠ .error → inp.moved = 4095 → Fills (readSizes env) 4095
  received : inp.exit ≠ .error → inp.moved ≠ 4095 → Received env inp.state.response

theorem sendLoop_exit (env : NetEnv) (h0 : 0 ∉ m) (hm : m.length < 2 ^ 31) (hpos : 0 < m.length)
    (hw : s.writeCalls = 0) (hwire : s.wire = []) : SendExit env m s (sendLoop env m s) := by
  have hleft := sendLoop_left env h0 hm hpos hw hwire
  generalize sendLoop env m s = out at hleft ⊢
  cases hleft with
  | @error s' hp hlt hf hI =>
    have hcall := hI.call env hm hlt
    have hfails : Fails env.writes m.length := ⟨s'.writeCalls, hp, hlt, hf⟩
    exact ⟨hcall.resources, hcall.readCalls, hcall.wire ▸ List.take_prefix _ _, fun _ => hfails,
      fun hne => absurd rfl hne⟩
  | @stop s' hp hlt hf hI =>
    have hcall := hI.call env hm hlt
    have hstops : Stops env.writes m.length := ⟨s'.writeCalls, hp, hlt, hf⟩
    have hwire' := hcall.wire
    rw [(writeCall_serves env hm).toNat_eq s' hlt, hf, Option.getD_some, Nat.zero_min,
      Nat.add_zero] at hwire'
    refine ⟨hcall.resources, hcall.readCalls, hwire' ▸ List.take_prefix _ _,
      fun he => absurd he (by simp), fun _ => ?_⟩
    exact .inr ⟨hstops, amount env.writes s'.writeCalls, hlt, hwire'⟩
  | @full s' hf hI =>
    have hwire' : s'.wire = m := by rw [hI.wire, List.take_length]
    exact ⟨hI.resources, hI.readCalls, hwire' ▸ List.prefix_rfl, fun he => absurd he (by simp),
      fun _ => .inl ⟨hf, hwire'⟩⟩

theorem receiveLoop_exit (env : NetEnv) (hr : s.readCalls = 0) :
    ReceiveExit env s (receiveLoop env s) := by
  have hleft := receiveLoop_left env hr
  generalize receiveLoop env s = inp at hleft ⊢
  cases hleft with
  | @error s' hp hlt hf hI =>
    have hcall := hI.call rfl hlt
    have hfails : Fails (readSizes env) 4095 := ⟨s'.readCalls, hp, hlt, hf⟩
    exact ⟨hcall.resources, hcall.wire, fun _ => hfails, fun hne => absurd rfl hne,
      fun hne => absurd rfl hne⟩
  | @stop s' hp hlt hf hI =>
    have hcall := hI.call rfl hlt
    have harr : (arrived env s'.readCalls).length = amount (readSizes env) s'.readCalls :=
      length_arrived env _
    obtain ⟨chunk, hc, hlen⟩ := Option.map_eq_some_iff.mp hf
    obtain rfl := List.eq_nil_of_length_eq_zero hlen
    have hresponse := hcall.response
    rw [(readCall_serves env).toNat_eq s' hlt, hf, Option.getD_some, Nat.zero_min, Nat.add_zero,
      (readCall_serves env).next, arrived_succ, hc, Option.getD_some, List.append_nil,
      List.take_of_length_le harr.le] at hresponse
    refine ⟨hcall.resources, hcall.wire, fun he => absurd he (by simp), fun _ hfull => ?_,
      fun _ _ => ⟨s'.readCalls, hp, hlt, hf, hresponse⟩⟩
    have hmoved : (amount (readSizes env) s'.readCalls : Int) = 4095 := hfull
    omega
  | @full s' hf hI =>
    exact ⟨hI.resources, hI.wire, fun he => absurd he (by simp), fun _ _ => hf,
      fun _ hne => absurd rfl hne⟩

def heldOnEntry : List Event := [.acquire (.chars .content), .acquire (.chars .host)]

/-- The exits of a call, given what `sprintf` made of the request. -/
inductive PostExit (env : NetEnv) (host : Bytes) (port : Int) (formatted : Option Bytes) :
    PostRun → Prop where
  | unformatted {s : NetState} (hm : formatted = none) : PostExit env host port formatted ⟨none, s⟩
  | noSocket {m : Bytes} {s : NetState} (hm : formatted = some m) (hs : env.socket < 0)
      (ht : resources s.trace = heldOnEntry) : PostExit env host port formatted ⟨some false, s⟩
  | noHost {m : Bytes} {s : NetState} (hm : formatted = some m) (hs : 0 ≤ env.socket)
      (hh : env.gethostbyname host = none) : PostExit env host port formatted ⟨none, s⟩
  | noConnection {m : Bytes} {s : NetState} {server : Hostent} (hm : formatted = some m)
      (hs : 0 ≤ env.socket) (hh : env.gethostbyname host = some server)
      (hc : env.connect (serverAddress server port) < 0)
      (ht : resources s.trace =
        heldOnEntry ++ [.acquire (.socket env.socket), .release (.socket env.socket)]) :
      PostExit env host port formatted ⟨some false, s⟩
  | writeError {m : Bytes} {s : NetState} (hm : formatted = some m)
      (hc : Connected env host port) (hf : Fails env.writes m.length)
      (ht : resources s.trace = heldOnEntry ++ [.acquire (.socket env.socket)]) :
      PostExit env host port formatted ⟨some false, s⟩
  | readError {m : Bytes} {s : NetState} (hm : formatted = some m)
      (hc : Connected env host port) (hw : Sent env m s.wire) (hf : Fails (readSizes env) 4095)
      (ht : resources s.trace = heldOnEntry ++ [.acquire (.socket env.socket)]) :
      PostExit env host port formatted ⟨some false, s⟩
  | overfull {m : Bytes} {s : NetState} (hm : formatted = some m)
      (hc : Connected env host port) (hw : Sent env m s.wire) (hf : Fills (readSizes env) 4095)
      (ht : resources s.trace = heldOnEntry ++ [.acquire (.socket env.socket)]) :
      PostExit env host port formatted ⟨some false, s⟩
  | success {m : Bytes} {s : NetState} (hm : formatted = some m)
      (hc : Connected env host port) (hw : Sent env m s.wire) (hr : Received env s.response)
      (ht : resources s.trace = heldOnEntry ++ [.acquire (.socket env.socket),
        .release (.socket env.socket), .release (.chars .content), .release (.chars .host)]) :
      PostExit env host port formatted ⟨some true, s⟩

theorem resources_emit_logi (s : NetState) (text : String) :
    resources (s.emit (.logi text)).trace = resources s.trace := by
  rw [NetState.emit_trace, resources_append]
  exact List.append_nil _

theorem postFormatted_exit (env : NetEnv) (host : Bytes) (port : Int) {formatted : Option Bytes}
    (hf : ∀ m, formatted = some m → 0 ∉ m ∧ m.length < 2 ^ 31 ∧ 0 < m.length) :
    PostExit env host port formatted (postFormatted env host port formatted) := by
  cases formatted with
  | none => exact .unformatted rfl
  | some m =>
    obtain ⟨h0, hlen, hpos⟩ := hf m rfl
    rw [postFormatted]
    split_ifs with hs
    · exact .noSocket rfl hs rfl
    · have hsocket : 0 ≤ env.socket := by omega
      cases hh : env.gethostbyname host with
      | none => exact .noHost rfl hsocket hh
      | some server =>
        dsimp only
        split_ifs with hc hwe hre hfull
        · exact .noConnection rfl hsocket hh hc rfl
        all_goals
          have hconn : Connected env host port := ⟨hsocket, server, hh, by omega⟩
          have hout := sendLoop_exit env h0 hlen hpos
            (s := enterPost.emit (.acquire (.socket env.socket))) rfl rfl
          have hinp := receiveLoop_exit env hout.readCalls
          have hheld := hinp.resources.trans hout.resources
        · have hlogged := (resources_emit_logi _ "error writing message to socket").trans hout.resources
          exact .writeError rfl hconn (hout.fails hwe) hlogged
        all_goals
          have hsent := hout.sent hwe
          rw [← hinp.wire] at hsent
        · have hlogged := (resources_emit_logi _ "error reading response from socket").trans hheld
          exact .readError rfl hconn hsent (hinp.fails hre) hlogged
        · have hfills := hinp.fills hre (hfull.trans toInt_responseSize)
          have hlogged :=
            (resources_emit_logi _ "error storing complete response from socket").trans hheld
          exact .overfull rfl hconn hsent hfills hlogged
        · have hrecv := hinp.received hre fun h => hfull (h.trans toInt_responseSize.symm)
          refine .success rfl hconn hsent hrecv ?_
          simp only [NetState.emit_trace, resources_append, hheld]
          rfl

theorem sendHttpPost_exit (env : NetEnv) (content_ host_ : JString) (port : Int) :
    PostExit env (getStringUTFChars host_) port (message (getStringUTFChars content_))
      (sendHttpPost env content_ host_ port) := by
  have h0 := zero_not_mem_getStringUTFChars content_
  exact postFormatted_exit env (getStringUTFChars host_) port fun m hm =>
    ⟨zero_not_mem_message h0 hm, (message_eq_some h0 hm).2, message_length_pos h0 hm⟩

variable {host : Bytes} {port : Int} {formatted : Option Bytes} {run : PostRun}

theorem PostExit.returned_true_iff (h : PostExit env host port formatted run) :
    run.returned = some true ↔ ∃ m, formatted = some m ∧ Connected env host port ∧
      ¬ Fails env.writes m.length ∧ Stops (readSizes env) 4095 := by
  constructor
  · intro hr
    cases h with
    | success hm hc hw hrecv _ => exact ⟨_, hm, hc, hw.not_fails, hrecv.stops⟩
    | _ => simp at hr
  · intro hall
    obtain ⟨m, hm, ⟨hs, server, hh, hc⟩, hw, hstop⟩ := hall
    cases h with
    | unformatted hn => rw [hn] at hm; contradiction
    | noSocket _ hs' _ => omega
    | noHost _ _ hn => rw [hn] at hh; contradiction
    | noConnection _ _ hh' hc' _ =>
      obtain rfl := Option.some.inj (hh.symm.trans hh')
      omega
    | writeError hm' _ hf _ =>
      obtain rfl := Option.some.inj (hm.symm.trans hm')
      exact absurd hf hw
    | readError _ _ _ hf _ => exact absurd hf hstop.not_fails
    | overfull _ _ _ hf _ => exact absurd hf hstop.not_fills
    | success _ _ _ _ _ => rfl

theorem PostExit.returned_isSome_iff (h : PostExit env host port formatted run) :
    run.returned.isSome ↔
      formatted.isSome ∧ (env.socket < 0 ∨ (env.gethostbyname host).isSome) := by
  cases h with
  | unformatted hm => simp [hm]
  | noSocket hm hs _ => simp [hm, hs]
  | noHost hm hs hh => simp [hm, hh, hs]
  | noConnection hm _ hh _ _ => simp [hm, hh]
  | writeError hm hc _ _ =>
    obtain ⟨server, hh, -⟩ := hc.peer
    simp [hm, hh]
  | readError hm hc _ _ _ =>
    obtain ⟨server, hh, -⟩ := hc.peer
    simp [hm, hh]
  | overfull hm hc _ _ _ =>
    obtain ⟨server, hh, -⟩ := hc.peer
    simp [hm, hh]
  | success hm hc _ _ _ =>
    obtain ⟨server, hh, -⟩ := hc.peer
    simp [hm, hh]

theorem PostExit.sent_of_returned_true (h : PostExit env host port formatted run)
    (hr : run.returned = some true) : ∃ m, formatted = some m ∧ Sent env m run.state.wire := by
  cases h with
  | success hm _ hw _ _ => exact ⟨_, hm, hw⟩
  | _ => simp at hr

end TaintdroidHack
