import TaintdroidHack.PostVerdict

/-! What holds in every call of the two transfer loops of `send_http_post` and
after them, however short the transfers are. -/

namespace TaintdroidHack

open Framing Transfer

variable {env : NetEnv} {m : Bytes} {s₀ s : NetState} {t : List Event}

def Event.sent : Event → Nat
  | .write _ _ result => result.toNat
  | _ => 0

def Event.received : Event → Nat
  | .read _ _ result => result.toNat
  | _ => 0

def Event.isQuiet : Event → Bool
  | .acquire _ => true
  | .release _ => true
  | .logi _ => true
  | _ => false

def sentBytes (t : List Event) : Nat := (t.map Event.sent).sum

def receivedBytes (t : List Event) : Nat := (t.map Event.received).sum

@[simp] theorem sentBytes_concat (t : List Event) (e : Event) :
    sentBytes (t ++ [e]) = sentBytes t + e.sent := by
  simp [sentBytes]

@[simp] theorem receivedBytes_concat (t : List Event) (e : Event) :
    receivedBytes (t ++ [e]) = receivedBytes t + e.received := by
  simp [receivedBytes]

theorem countP_pos_le_sum (f : Event → Nat) (t : List Event) :
    (t.countP fun e => 0 < f e) ≤ (t.map f).sum := by
  induction t with
  | nil => simp
  | cons e t ih =>
    rw [List.countP_cons, List.map_cons, List.sum_cons]
    by_cases hpos : 0 < f e
    · simp only [hpos, decide_true, if_true]
      omega
    · simp only [hpos, decide_false, Bool.false_eq_true, if_false]
      omega

def enterSend (env : NetEnv) : NetState := enterPost.emit (.acquire (.socket env.socket))

def writeHeads (env : NetEnv) (m : Bytes) : List (Int × NetState) :=
  heads (writeCall env m (toInt (strlen m))) (toInt (strlen m)) 0 (enterSend env)

def zeroed (s : NetState) : NetState := { s with response := List.replicate responseSize 0 }

def enterReceive (env : NetEnv) (m : Bytes) : NetState :=
  zeroed (sendLoop env m (enterSend env)).state

def readHeads (env : NetEnv) (m : Bytes) : List (Int × NetState) :=
  heads (readCall env (toInt (responseSize - 1))) (toInt (responseSize - 1)) 0 (enterReceive env m)

/-- Every event of this kind in the trace is a call that a loop made in the
state with what the trace holds before it. -/
def Recorded (kind : Int → Nat → Int → Event) (calls : List (Int × NetState))
    (P : Int → Nat → Int → NetState → Prop) (t : List Event) : Prop :=
  ∀ i offset count result, t[i]? = some (kind offset count result) →
    ∃ s, s.trace = t.take i ∧ (offset, s) ∈ calls ∧ P offset count result s

structure WriteSound (m : Bytes) (sent : Int) (count : Nat) (result : Int) (s : NetState) :
    Prop where
  start : 0 ≤ sent
  asked : 0 < count
  rest : sent + count = strlen m
  within : result ≤ count
  sent_eq : sent = sentBytes s.trace
  wire : s.wire = m.take sent.toNat

structure ReadSound (env : NetEnv) (received : Int) (count : Nat) (result : Int) (s : NetState) :
    Prop where
  start : 0 ≤ received
  asked : 0 < count
  inside : received + count = (responseSize - 1 : Nat)
  within : result ≤ count
  eof : result = 0 → env.reads s.readCalls = some []
  received_eq : received = receivedBytes s.trace
  chunks : (arrived env s.readCalls).length = received
  response : s.response =
    arrived env s.readCalls ++ List.replicate (responseSize - received.toNat) 0

structure SentPrefix (m : Bytes) (s : NetState) : Prop where
  sent_le : sentBytes s.trace ≤ strlen m
  wire : s.wire = m.take (sentBytes s.trace)

structure Stored (env : NetEnv) (s : NetState) : Prop where
  received_le : receivedBytes s.trace ≤ responseSize - 1
  arrived_le : receivedBytes s.trace ≤ (arrived env s.readCalls).length
  response : s.response = (arrived env s.readCalls).take (receivedBytes s.trace) ++
    List.replicate (responseSize - receivedBytes s.trace) 0

/-- In a call with the request `m`: every write and every read in its trace,
what has been sent and stored, and what is printed. -/
structure TransfersSound (env : NetEnv) (m : Bytes) (s : NetState) : Prop where
  write : Recorded .write (writeHeads env m) (WriteSound m) s.trace
  read : Recorded .read (readHeads env m) (ReadSound env) s.trace
  sent : SentPrefix m s
  received : receivedBytes s.trace = 0 ∧ s.response = [] ∨ Stored env s
  printed : ∀ text, .logResponse text ∈ s.trace →
    text = cString s.response ∧ s.response.length = responseSize ∧ 0 ∈ s.response

theorem Recorded.of_not_mem {kind : Int → Nat → Int → Event} {calls : List (Int × NetState)}
    {P : Int → Nat → Int → NetState → Prop}
    (h : ∀ offset count result, kind offset count result ∉ t) : Recorded kind calls P t :=
  fun _ offset count result he => absurd (List.mem_of_getElem? he) (h offset count result)

theorem Recorded.concat {kind : Int → Nat → Int → Event} {calls : List (Int × NetState)}
    {P : Int → Nat → Int → NetState → Prop} {e : Event} (h : Recorded kind calls P t)
    (hne : ∀ offset count result, e ≠ kind offset count result) :
    Recorded kind calls P (t ++ [e]) := by
  intro i offset count result he
  have hi : i < t.length := by
    by_contra hge
    rw [List.getElem?_append_right (by omega), List.getElem?_singleton] at he
    split_ifs at he
    exact hne _ _ _ (Option.some.inj he)
  rw [List.getElem?_append_left hi] at he
  obtain ⟨s, hs, hmem, hP⟩ := h i offset count result he
  refine ⟨s, ?_, hmem, hP⟩
  rw [hs, List.take_append_of_le_length hi.le]

theorem Recorded.loop {kind : Int → Nat → Int → Event} {calls : List (Int × NetState)}
    {P : Int → Nat → Int → NetState → Prop} {call : NetState → Int → Int × NetState}
    {event : Int × NetState → Event} {bound moved : Int}
    (hlog : ∀ m s, (call s m).2.trace = s.trace ++ [event (m, s)])
    (h : Recorded kind calls P s.trace)
    (hnew : ∀ r ∈ heads call bound moved s, ∀ offset count result,
      event r = kind offset count result → (offset, r.2) ∈ calls ∧ P offset count result r.2) :
    Recorded kind calls P (Transfer.loop call bound moved s).state.trace := by
  intro i offset count result he
  have hprefix : s.trace <+: (Transfer.loop call bound moved s).state.trace :=
    log_prefix_loop NetState.trace hlog
  rcases log_loop_cases NetState.trace hlog he with hold | ⟨r, hr, hevent, hbefore⟩
  · obtain ⟨before, hs, hmem, hP⟩ := h i offset count result hold
    have hi : i < s.trace.length := (List.getElem?_eq_some_iff.mp hold).1
    obtain ⟨rest, hrest⟩ := hprefix
    refine ⟨before, ?_, hmem, hP⟩
    rw [hs, ← hrest, List.take_append_of_le_length hi.le]
  · obtain ⟨hmem, hP⟩ := hnew r hr offset count result hevent
    exact ⟨r.2, hbefore, hmem, hP⟩

structure SendInvariant (m : Bytes) (s₀ : NetState) (sent : Int) (s : NetState) : Prop where
  sent_eq : sent = sentBytes s.trace
  sent_le : sentBytes s.trace ≤ m.length
  sending : Sending m s₀ (sentBytes s.trace) s
  received : receivedBytes s.trace = receivedBytes s₀.trace
  response : s.response = s₀.response

theorem writeCall_response (env : NetEnv) (m : Bytes) (total : Int) (s : NetState) (sent : Int) :
    (writeCall env m total s sent).2.response = s.response := by
  rw [writeCall]
  cases env.writes s.writeCalls <;> rfl

theorem SendInvariant.step {sent : Int} (hm : m.length < 2 ^ 31)
    (h : SendInvariant m s₀ sent s) (hlt : sent < m.length) :
    SendInvariant m s₀ (sent + (writeCall env m m.length s sent).1.toNat)
      (writeCall env m m.length s sent).2 := by
  obtain ⟨k, rfl⟩ : ∃ k : Nat, sent = k := ⟨_, h.sent_eq⟩
  have hsum : sentBytes s.trace = k := (Int.natCast_inj.mp h.sent_eq).symm
  have hk : k < m.length := by omega
  have hsending := h.sending
  rw [hsum] at hsending
  have hcall := hsending.call env hm hk
  have hle := (writeCall_serves env hm).result_le s hk
  have hsent : sentBytes (writeCall env m m.length s k).2.trace =
      k + (writeCall env m m.length s k).1.toNat := by
    rw [writeCall_trace, sentBytes_concat, hsum]
    rfl
  have hreceived : receivedBytes (writeCall env m m.length s k).2.trace =
      receivedBytes s.trace := by
    rw [writeCall_trace, receivedBytes_concat]
    rfl
  refine ⟨?_, ?_, ?_, hreceived.trans h.received,
    (writeCall_response env m m.length s k).trans h.response⟩
  · rw [hsent, Int.natCast_add]
  · rw [hsent]
    omega
  · rw [hsent]
    exact hcall

theorem sendInvariant_keeps (env : NetEnv) (hm : m.length < 2 ^ 31) (s₀ : NetState) :
    Keeps (writeCall env m m.length) m.length (SendInvariant m s₀) :=
  fun _ _ h hlt => h.step hm hlt

theorem sendInvariant_enterSend (env : NetEnv) (m : Bytes) :
    SendInvariant m (enterSend env) 0 (enterSend env) :=
  ⟨rfl, Nat.zero_le _, ⟨rfl, rfl, rfl⟩, rfl, rfl⟩

theorem sendLoop_invariant (env : NetEnv) (h0 : 0 ∉ m) (hm : m.length < 2 ^ 31)
    (hpos : 0 < m.length) :
    SendInvariant m (enterSend env) (sendLoop env m (enterSend env)).moved
      (sendLoop env m (enterSend env)).state := by
  rw [sendLoop, strlen_of_zero_not_mem h0, toInt_of_lt hm]
  apply (sendInvariant_keeps env hm (enterSend env)).loop
  · omega
  · exact sendInvariant_enterSend env m

theorem writeHeads_invariant (h0 : 0 ∉ m) (hm : m.length < 2 ^ 31) (hpos : 0 < m.length) :
    ∀ h ∈ writeHeads env m, h.1 < m.length ∧ SendInvariant m (enterSend env) h.1 h.2 := by
  rw [writeHeads, strlen_of_zero_not_mem h0, toInt_of_lt hm]
  apply (sendInvariant_keeps env hm (enterSend env)).heads
  · omega
  · exact sendInvariant_enterSend env m

theorem writeHeads_sound (h0 : 0 ∉ m) (hm : m.length < 2 ^ 31) (hpos : 0 < m.length)
    {h : Int × NetState} (hh : h ∈ writeHeads env m) :
    WriteSound m h.1 (toSize (toInt (strlen m) - h.1))
      (writeCall env m (toInt (strlen m)) h.2 h.1).1 h.2 := by
  obtain ⟨hlt, hinv⟩ := writeHeads_invariant h0 hm hpos h hh
  have heq := hinv.sent_eq
  have hk : sentBytes h.2.trace < m.length := by omega
  have hcount : toSize ((m.length : Int) - h.1) = m.length - sentBytes h.2.trace := by
    rw [heq]
    exact toSize_sub hinv.sent_le hm
  rw [strlen_of_zero_not_mem h0, toInt_of_lt hm, hcount]
  refine ⟨by omega, by omega, ?_, ?_, heq, ?_⟩
  · rw [strlen_of_zero_not_mem h0]
    omega
  · rw [heq]
    exact (writeCall_serves env hm).result_le h.2 hk
  · rw [heq, Int.toNat_natCast]
    exact hinv.sending.wire

structure ReceiveInvariant (env : NetEnv) (s₀ : NetState) (received : Int) (s : NetState) :
    Prop where
  received_eq : received = receivedBytes s.trace
  received_le : receivedBytes s.trace ≤ 4095
  receiving : Receiving env s₀ (receivedBytes s.trace) s
  arrived_le : receivedBytes s.trace ≤ (arrived env s.readCalls).length
  chunks : receivedBytes s.trace < 4095 →
    receivedBytes s.trace = (arrived env s.readCalls).length
  sent : sentBytes s.trace = sentBytes s₀.trace

theorem ReceiveInvariant.step {received : Int} (h : ReceiveInvariant env s₀ received s)
    (hlt : received < (4095 : Nat)) :
    ReceiveInvariant env s₀ (received + (readCall env (4095 : Nat) s received).1.toNat)
      (readCall env (4095 : Nat) s received).2 := by
  obtain ⟨k, rfl⟩ : ∃ k : Nat, received = k := ⟨_, h.received_eq⟩
  have hsum : receivedBytes s.trace = k := (Int.natCast_inj.mp h.received_eq).symm
  have hk : k < 4095 := by omega
  have hlen : k = (arrived env s.readCalls).length := hsum ▸ h.chunks (by omega)
  have hreceiving := h.receiving
  rw [hsum] at hreceiving
  have hcall := hreceiving.call (by rw [← length_arrived, ← hlen]) hk
  have hmoved := (readCall_serves env).toNat_eq s hk
  have hreceived : receivedBytes (readCall env (4095 : Nat) s k).2.trace =
      k + (readCall env (4095 : Nat) s k).1.toNat := by
    rw [readCall_trace, receivedBytes_concat, hsum]
    rfl
  have hsent : sentBytes (readCall env (4095 : Nat) s k).2.trace = sentBytes s.trace := by
    rw [readCall_trace, sentBytes_concat]
    rfl
  have harrived : (arrived env (readCall env (4095 : Nat) s k).2.readCalls).length =
      k + (readSizes env s.readCalls).getD 0 := by
    rw [(readCall_serves env).next, length_arrived, amount_succ, ← length_arrived, ← hlen]
  refine ⟨?_, ?_, ?_, ?_, ?_, hsent.trans h.sent⟩
  · rw [hreceived, Int.natCast_add]
  · rw [hreceived]
    omega
  · rw [hreceived]
    exact hcall
  · rw [hreceived, harrived]
    omega
  · rw [hreceived, harrived]
    omega

theorem receiveInvariant_keeps (env : NetEnv) (s₀ : NetState) :
    Keeps (readCall env (4095 : Nat)) (4095 : Nat) (ReceiveInvariant env s₀) :=
  fun _ _ h hlt => h.step hlt

theorem receiveInvariant_zeroed (env : NetEnv) (hcalls : s.readCalls = 0)
    (hreceived : receivedBytes s.trace = 0) : ReceiveInvariant env (zeroed s) 0 (zeroed s) := by
  have htrace : receivedBytes (zeroed s).trace = 0 := hreceived
  have hzeros : (zeroed s).response = List.replicate responseSize 0 := rfl
  have hreads : (zeroed s).readCalls = 0 := hcalls
  refine ⟨?_, ?_, ?_, ?_, ?_, rfl⟩
  · rw [htrace, Int.natCast_zero]
  · omega
  · rw [htrace]
    refine ⟨?_, rfl, rfl⟩
    rw [hzeros, List.take_zero, List.nil_append, responseSize, Nat.sub_zero]
  · omega
  · rw [htrace, hreads]
    exact fun _ => rfl

theorem receiveLoop_invariant (env : NetEnv) (hcalls : s.readCalls = 0)
    (hreceived : receivedBytes s.trace = 0) :
    ReceiveInvariant env (zeroed s) (receiveLoop env s).moved (receiveLoop env s).state := by
  rw [receiveLoop, toInt_responseSize]
  apply (receiveInvariant_keeps env (zeroed s)).loop
  · omega
  · exact receiveInvariant_zeroed env hcalls hreceived

theorem heads_readCall_invariant (hcalls : s.readCalls = 0)
    (hreceived : receivedBytes s.trace = 0) :
    ∀ h ∈ heads (readCall env (toInt (responseSize - 1))) (toInt (responseSize - 1)) 0 (zeroed s),
      h.1 < (4095 : Nat) ∧ ReceiveInvariant env (zeroed s) h.1 h.2 := by
  rw [toInt_responseSize]
  apply (receiveInvariant_keeps env (zeroed s)).heads
  · omega
  · exact receiveInvariant_zeroed env hcalls hreceived

theorem reads_eq_nil_of_zero {k : Nat} (hk : k < 4095)
    (hzero : (readCall env (4095 : Nat) s k).1 = 0) : env.reads s.readCalls = some [] := by
  have hsize := (readCall_serves env).offers_zero hk hzero
  obtain ⟨chunk, hc, hlen⟩ := Option.map_eq_some_iff.mp hsize
  rw [hc, List.eq_nil_of_length_eq_zero hlen]

theorem heads_readCall_sound (hcalls : s.readCalls = 0) (hreceived : receivedBytes s.trace = 0)
    {h : Int × NetState}
    (hh : h ∈ heads (readCall env (toInt (responseSize - 1))) (toInt (responseSize - 1)) 0
      (zeroed s)) :
    ReadSound env h.1 (toSize (toInt (responseSize - 1) - h.1))
      (readCall env (toInt (responseSize - 1)) h.2 h.1).1 h.2 := by
  obtain ⟨hlt, hinv⟩ := heads_readCall_invariant hcalls hreceived h hh
  have heq := hinv.received_eq
  have hk : receivedBytes h.2.trace < 4095 := by omega
  have hlen := hinv.chunks hk
  have hcount : toSize (toInt (responseSize - 1) - h.1) = 4095 - receivedBytes h.2.trace := by
    rw [toInt_responseSize, heq]
    exact toSize_sub hinv.received_le (by omega)
  have hresponse := hinv.receiving.response
  rw [List.take_of_length_le hlen.symm.le] at hresponse
  rw [hcount, toInt_responseSize]
  refine ⟨by omega, by omega, ?_, ?_, ?_, heq, ?_, ?_⟩
  · rw [responseSize]
    omega
  · rw [heq]
    exact (readCall_serves env).result_le h.2 hk
  · rw [heq]
    exact reads_eq_nil_of_zero hk
  · rw [heq, hlen]
  · rw [heq, Int.toNat_natCast, responseSize]
    exact hresponse

theorem ReceiveInvariant.stored {received : Int} (h : ReceiveInvariant env s₀ received s) :
    Stored env s :=
  ⟨h.received_le, h.arrived_le, h.receiving.response⟩

theorem Stored.length_response (h : Stored env s) : s.response.length = responseSize := by
  have hle := h.received_le
  rw [h.response, List.length_append, List.length_take, List.length_replicate,
    Nat.min_eq_left h.arrived_le]
  rw [responseSize] at hle ⊢
  omega

theorem Stored.zero_mem_response (h : Stored env s) : 0 ∈ s.response := by
  have hle := h.received_le
  rw [h.response]
  apply List.mem_append_right
  rw [List.mem_replicate]
  rw [responseSize] at hle ⊢
  exact ⟨by omega, rfl⟩

theorem SentPrefix.emit {e : Event} (h : SentPrefix m s) (he : e.sent = 0) :
    SentPrefix m (s.emit e) := by
  have hsum : sentBytes (s.emit e).trace = sentBytes s.trace := by
    rw [NetState.emit_trace, sentBytes_concat, he, Nat.add_zero]
  refine ⟨?_, ?_⟩
  · rw [hsum]
    exact h.sent_le
  · rw [hsum]
    exact h.wire

theorem Stored.emit {e : Event} (h : Stored env s) (he : e.received = 0) :
    Stored env (s.emit e) := by
  have hsum : receivedBytes (s.emit e).trace = receivedBytes s.trace := by
    rw [NetState.emit_trace, receivedBytes_concat, he, Nat.add_zero]
  refine ⟨?_, ?_, ?_⟩
  · rw [hsum]
    exact h.received_le
  · rw [hsum]
    exact h.arrived_le
  · rw [hsum]
    exact h.response

theorem TransfersSound.emit {e : Event} (h : TransfersSound env m s)
    (hw : ∀ offset count result, e ≠ .write offset count result)
    (hr : ∀ offset count result, e ≠ .read offset count result)
    (hp : ∀ text, e = .logResponse text →
      text = cString s.response ∧ s.response.length = responseSize ∧ 0 ∈ s.response) :
    TransfersSound env m (s.emit e) := by
  have hsent : e.sent = 0 := by
    cases e with
    | write offset count result => exact absurd rfl (hw _ _ _)
    | _ => rfl
  have hreceived : e.received = 0 := by
    cases e with
    | read offset count result => exact absurd rfl (hr _ _ _)
    | _ => rfl
  refine ⟨h.write.concat hw, h.read.concat hr, h.sent.emit hsent, ?_, ?_⟩
  · rcases h.received with ⟨hnone, hempty⟩ | hstored
    · refine .inl ⟨?_, hempty⟩
      rw [NetState.emit_trace, receivedBytes_concat, hnone, hreceived]
    · exact .inr (hstored.emit hreceived)
  · intro text htext
    rw [NetState.emit_trace, List.mem_append, List.mem_singleton] at htext
    rcases htext with hold | hnew
    · exact h.printed text hold
    · exact hp text hnew.symm

theorem TransfersSound.emit_logResponse (h : TransfersSound env m s) (hs : Stored env s) :
    TransfersSound env m (s.emit (.logResponse (cString s.response))) := by
  refine h.emit (by simp) (by simp) ?_
  intro text he
  exact ⟨(Event.logResponse.inj he).symm, hs.length_response, hs.zero_mem_response⟩

theorem TransfersSound.emit_quiet {e : Event} (h : TransfersSound env m s)
    (he : e.isQuiet = true) : TransfersSound env m (s.emit e) := by
  apply h.emit
  · rintro offset count result rfl
    contradiction
  · rintro offset count result rfl
    contradiction
  · rintro text rfl
    contradiction

theorem transfersSound_enterPost (env : NetEnv) (m : Bytes) : TransfersSound env m enterPost := by
  refine ⟨?_, ?_, ⟨Nat.zero_le _, rfl⟩, .inl ⟨rfl, rfl⟩, ?_⟩
  · apply Recorded.of_not_mem
    simp [enterPost]
  · apply Recorded.of_not_mem
    simp [enterPost]
  · simp [enterPost]

theorem transfersSound_enterSend (env : NetEnv) (m : Bytes) :
    TransfersSound env m (enterSend env) :=
  (transfersSound_enterPost env m).emit_quiet rfl

theorem enterSend_unprinted (env : NetEnv) (text : Bytes) :
    .logResponse text ∉ (enterSend env).trace := by
  simp [enterSend, enterPost, NetState.emit]

theorem sendLoop_unprinted (env : NetEnv) (m : Bytes) (text : Bytes) :
    .logResponse text ∉ (sendLoop env m (enterSend env)).state.trace := by
  intro htext
  have hlog := fun sent s => writeCall_trace env m (toInt (strlen m)) sent s
  rcases mem_log_loop NetState.trace hlog htext with hold | ⟨h, _, he⟩
  · exact enterSend_unprinted env text hold
  · cases he

theorem transfersSound_sendLoop (env : NetEnv) (h0 : 0 ∉ m) (hm : m.length < 2 ^ 31)
    (hpos : 0 < m.length) : TransfersSound env m (sendLoop env m (enterSend env)).state := by
  have hstart := transfersSound_enterSend env m
  have hinv := sendLoop_invariant env h0 hm hpos
  have hlog := fun sent s => writeCall_trace env m (toInt (strlen m)) sent s
  refine ⟨?_, ?_, ⟨?_, hinv.sending.wire⟩, .inl ⟨hinv.received, hinv.response⟩, ?_⟩
  · apply hstart.write.loop hlog
    intro h hh offset count result he
    obtain ⟨rfl, rfl, rfl⟩ := Event.write.inj he
    exact ⟨hh, writeHeads_sound h0 hm hpos hh⟩
  · apply hstart.read.loop hlog
    intro h _ offset count result he
    cases he
  · rw [strlen_of_zero_not_mem h0]
    exact hinv.sent_le
  · exact fun text htext => absurd htext (sendLoop_unprinted env m text)

theorem TransfersSound.receiveLoop (h : TransfersSound env m s) (hcalls : s.readCalls = 0)
    (hreceived : receivedBytes s.trace = 0) (hunprinted : ∀ text, .logResponse text ∉ s.trace)
    (hheads : readHeads env m =
      heads (readCall env (toInt (responseSize - 1))) (toInt (responseSize - 1)) 0 (zeroed s)) :
    TransfersSound env m (receiveLoop env s).state := by
  have hinv := receiveLoop_invariant env hcalls hreceived
  have hlog := fun received s => readCall_trace env (toInt (responseSize - 1)) received s
  refine ⟨?_, ?_, ⟨?_, ?_⟩, .inr hinv.stored, ?_⟩
  · apply Recorded.loop (s := zeroed s) hlog h.write
    intro r _ offset count result he
    cases he
  · apply Recorded.loop (s := zeroed s) hlog h.read
    intro r hr offset count result he
    obtain ⟨rfl, rfl, rfl⟩ := Event.read.inj he
    rw [hheads]
    exact ⟨hr, heads_readCall_sound hcalls hreceived hr⟩
  · rw [hinv.sent]
    exact h.sent.sent_le
  · rw [hinv.sent, hinv.receiving.wire]
    exact h.sent.wire
  · intro text htext
    rcases mem_log_loop NetState.trace hlog htext with hold | ⟨r, _, he⟩
    · exact absurd hold (hunprinted text)
    · cases he

theorem postFormatted_sound (env : NetEnv) (host : Bytes) (port : Int) {formatted : Option Bytes}
    (hf : formatted = some m) (h0 : 0 ∉ m) (hm : m.length < 2 ^ 31) (hpos : 0 < m.length) :
    TransfersSound env m (postFormatted env host port formatted).state := by
  subst hf
  have hsend := transfersSound_sendLoop env h0 hm hpos
  have hinv := sendLoop_invariant env h0 hm hpos
  have hcalls : (sendLoop env m (enterSend env)).state.readCalls = 0 := hinv.sending.readCalls
  have hreceive := hsend.receiveLoop hcalls hinv.received (sendLoop_unprinted env m) rfl
  have hstored := (receiveLoop_invariant env hcalls hinv.received).stored
  rw [postFormatted]
  split_ifs with hs
  · exact (transfersSound_enterPost env m).emit_quiet rfl
  · cases hh : env.gethostbyname host with
    | none => exact transfersSound_enterSend env m
    | some server =>
      dsimp only
      split_ifs with hc hwe hre hfull
      · have hlogged := (transfersSound_enterSend env m).emit_quiet
          (e := .logi "error connecting") rfl
        exact hlogged.emit_quiet rfl
      · exact hsend.emit_quiet rfl
      · exact hreceive.emit_quiet rfl
      · exact hreceive.emit_quiet rfl
      · have hprinted := hreceive.emit_logResponse hstored
        have hclosed := hprinted.emit_quiet (e := .release (.socket env.socket)) rfl
        have hcontent := hclosed.emit_quiet (e := .release (.chars .content)) rfl
        exact hcontent.emit_quiet rfl

theorem TransfersSound.countP_sent_le (h : TransfersSound env m s) :
    (s.trace.countP fun e => 0 < e.sent) ≤ strlen m :=
  (countP_pos_le_sum Event.sent s.trace).trans h.sent.sent_le

theorem TransfersSound.countP_received_le (h : TransfersSound env m s) :
    (s.trace.countP fun e => 0 < e.received) ≤ responseSize - 1 := by
  have hle : (s.trace.countP fun e => 0 < e.received) ≤ receivedBytes s.trace :=
    countP_pos_le_sum Event.received s.trace
  rcases h.received with ⟨hnone, -⟩ | hstored
  · omega
  · exact hle.trans hstored.received_le

theorem sendHttpPost_eq (env : NetEnv) (content_ host_ : JString) (port : Int) :
    sendHttpPost env content_ host_ port =
      postFormatted env (getStringUTFChars host_) port (message (getStringUTFChars content_)) := rfl

/-- Whatever the network answers, both loops keep their invariants in every
call they make, and neither makes more progress than there is to make. -/
theorem transfers_sound (env : NetEnv) (content_ host_ : JString) (port : Int) {m : Bytes}
    (hm : message (getStringUTFChars content_) = some m) :
    TransfersSound env m (sendHttpPost env content_ host_ port).state ∧
      ((sendHttpPost env content_ host_ port).state.trace.countP fun e => 0 < e.sent) ≤ strlen m ∧
      ((sendHttpPost env content_ host_ port).state.trace.countP fun e => 0 < e.received) ≤
        responseSize - 1 := by
  have h0 := zero_not_mem_getStringUTFChars content_
  have hsound := postFormatted_sound env (getStringUTFChars host_) port hm
    (zero_not_mem_message h0 hm) (message_eq_some h0 hm).2 (message_length_pos h0 hm)
  rw [← sendHttpPost_eq] at hsound
  exact ⟨hsound, hsound.countP_sent_le, hsound.countP_received_le⟩

-- It takes one byte in the first write, two in the second, and so on.
def slowServer : NetEnv :=
  { deafServer with
    writes := fun i => some (i + 1)
    reads := fun i => some ([[72], [105]].getD i []) }

theorem transfers_sound_slowServer :
    ∃ m, message (getStringUTFChars [65]) = some m ∧
      TransfersSound slowServer m (sendHttpPost slowServer [65] [65] 80).state ∧
        ((sendHttpPost slowServer [65] [65] 80).state.trace.countP fun e => 0 < e.sent) ≤ strlen m ∧
        ((sendHttpPost slowServer [65] [65] 80).state.trace.countP fun e => 0 < e.received) ≤
          responseSize - 1 := by
  obtain ⟨m, hm⟩ := Option.isSome_iff_exists.mp message_letter_isSome
  exact ⟨m, hm, transfers_sound slowServer [65] [65] 80 hm⟩

end TaintdroidHack
