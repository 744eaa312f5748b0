import TaintdroidHack.PostExits

/-! What the verdict of `send_http_post` says about the request and about the
calls on the way: it can be positive although a write took nothing and the rest
was never sent, and there is none where the host does not resolve. -/

namespace TaintdroidHack

open Framing Transfer

variable {env : NetEnv} {host m : Bytes} {port : Int} {formatted : Option Bytes} {run : PostRun}

def StallsUnnoticed (env : NetEnv) (host : Bytes) (port : Int) (m : Bytes) : Prop :=
  Connected env host port ∧ Stops env.writes m.length ∧ Stops (readSizes env) 4095

theorem PostExit.returned_of_stalls (h : PostExit env host port (some m) run)
    (hs : StallsUnnoticed env host port m) : run.returned = some true :=
  h.returned_true_iff.mpr ⟨m, rfl, hs.1, hs.2.1.not_fails, hs.2.2⟩

theorem PostExit.wire_length_of_stalls (h : PostExit env host port (some m) run)
    (hs : StallsUnnoticed env host port m) : run.state.wire.length < m.length := by
  obtain ⟨m', hm, hsent⟩ := h.sent_of_returned_true (h.returned_of_stalls hs)
  obtain rfl := Option.some.inj hm
  rcases hsent with ⟨hfills, _⟩ | ⟨_, k, hk, hwire⟩
  · exact absurd hfills hs.2.1.not_fills
  · rw [hwire, List.length_take]
    omega

theorem PostExit.wire_eq_of_not_stalls (h : PostExit env host port (some m) run)
    (hr : run.returned = some true) (hs : ¬ StallsUnnoticed env host port m) :
    run.state.wire = m := by
  obtain ⟨m', hm, hconn, -, hreads⟩ := h.returned_true_iff.mp hr
  obtain ⟨m'', hm'', hsent⟩ := h.sent_of_returned_true hr
  obtain rfl := Option.some.inj hm''
  rcases hsent with ⟨_, hwire⟩ | ⟨hstop, _⟩
  · exact hwire
  · exact absurd ⟨hconn, hstop, hreads⟩ hs

theorem PostExit.complete_iff (h : PostExit env host port formatted run) :
    (run.returned = some true → formatted = some run.state.wire) ↔
      ¬ ∃ m, formatted = some m ∧ StallsUnnoticed env host port m := by
  constructor
  · rintro hall ⟨m, rfl, hs⟩
    have hwire := Option.some.inj (hall (h.returned_of_stalls hs))
    have hlt := h.wire_length_of_stalls hs
    rw [← hwire] at hlt
    exact lt_irrefl _ hlt
  · intro hs hr
    obtain ⟨m, rfl, -⟩ := h.returned_true_iff.mp hr
    rw [h.wire_eq_of_not_stalls hr fun hstalls => hs ⟨m, rfl, hstalls⟩]

/-- A positive verdict means that the whole request went out, unless a write
that took nothing ended the send loop unnoticed. -/
theorem upload_complete_iff (env : NetEnv) (content_ host_ : JString) (port : Int) :
    ((sendHttpPost env content_ host_ port).returned = some true →
        message (getStringUTFChars content_) =
          some (sendHttpPost env content_ host_ port).state.wire) ↔
      ¬ ∃ m, message (getStringUTFChars content_) = some m ∧
        StallsUnnoticed env (getStringUTFChars host_) port m :=
  (sendHttpPost_exit env content_ host_ port).complete_iff

theorem message_letter_isSome : (message (getStringUTFChars [65])).isSome := by
  obtain ⟨m, hm⟩ := message_of_length_lt (zero_not_mem_getStringUTFChars [65]) (by decide)
  rw [hm]
  rfl

def deafServer : NetEnv where
  socket := 3
  gethostbyname _ := some ⟨0x0100007f⟩
  connect _ := 0
  writes _ := some 0
  reads _ := some []

theorem deafServer_stalls (host : Bytes) (port : Int) {m : Bytes} (hm : 0 < m.length) :
    StallsUnnoticed deafServer host port m :=
  ⟨⟨by decide, ⟨0x0100007f⟩, rfl, Int.le_refl 0⟩, ⟨0, progress_zero _, hm, rfl⟩,
    ⟨0, progress_zero _, by decide, rfl⟩⟩

theorem deafServer_reports_success :
    (sendHttpPost deafServer [65] [65] 80).returned = some true ∧
      message (getStringUTFChars [65]) ≠ some (sendHttpPost deafServer [65] [65] 80).state.wire := by
  have h0 := zero_not_mem_getStringUTFChars [65]
  obtain ⟨m, hm⟩ := Option.isSome_iff_exists.mp message_letter_isSome
  have hexit := sendHttpPost_exit deafServer [65] [65] 80
  have hstalls := deafServer_stalls (getStringUTFChars [65]) 80 (message_length_pos h0 hm)
  rw [hm] at hexit
  refine ⟨hexit.returned_of_stalls hstalls, fun hwire => ?_⟩
  have hlt := hexit.wire_length_of_stalls hstalls
  rw [← Option.some.inj (hm.symm.trans hwire)] at hlt
  exact lt_irrefl _ hlt

inductive ReportsError (env : NetEnv) (host : Bytes) (port : Int) (formatted : Option Bytes) :
    Prop where
  | socket (hs : env.socket < 0)
  | gethostbyname (hh : env.gethostbyname host = none)
  | connect {server : Hostent} (hh : env.gethostbyname host = some server)
      (hc : env.connect (serverAddress server port) < 0)
  | write {m : Bytes} (hm : formatted = some m) (hf : Fails env.writes m.length)
  | read (hf : Fails (readSizes env) 4095)

theorem PostExit.returned_ne_true_of_reports (h : PostExit env host port formatted run)
    (hr : ReportsError env host port formatted) : run.returned ≠ some true := by
  intro htrue
  obtain ⟨m, hm, hconn, hw, hstops⟩ := h.returned_true_iff.mp htrue
  obtain ⟨server, hh, hc⟩ := hconn.peer
  cases hr with
  | socket hs =>
    have := hconn.socket
    omega
  | gethostbyname hn => rw [hh] at hn; contradiction
  | connect hh' hc' =>
    obtain rfl := Option.some.inj (hh.symm.trans hh')
    omega
  | write hm' hf =>
    obtain rfl := Option.some.inj (hm.symm.trans hm')
    exact hw hf
  | read hf => exact hstops.not_fails hf

theorem sendHttpPostStored_exit (env : NetEnv) (content_ host_ : JString) (port : Int) :
    PostExit env (getStringUTFChars host_) port (storedMessage (getStringUTFChars content_))
      (sendHttpPostStored env content_ host_ port) := by
  have h0 := zero_not_mem_getStringUTFChars content_
  refine postFormatted_exit env (getStringUTFChars host_) port fun m hm => ?_
  obtain ⟨hm, -⟩ := storedMessage_eq_some h0 hm
  exact ⟨zero_not_mem_message h0 hm, (message_eq_some h0 hm).2, message_length_pos h0 hm⟩

/-- The call returns, with a negative verdict on each of its errors, where the
request fits its array and the host resolves once the socket is open. -/
theorem errors_reported_iff (env : NetEnv) (content_ host_ : JString) (port : Int) :
    ((sendHttpPostStored env content_ host_ port).returned.isSome ∧
        (ReportsError env (getStringUTFChars host_) port
            (storedMessage (getStringUTFChars content_)) →
          (sendHttpPostStored env content_ host_ port).returned = some false)) ↔
      (getStringUTFChars content_).length < 1000 ∧
        (env.socket < 0 ∨ (env.gethostbyname (getStringUTFChars host_)).isSome) := by
  have hexit := sendHttpPostStored_exit env content_ host_ port
  rw [← storedMessage_isSome_iff (zero_not_mem_getStringUTFChars content_),
    ← hexit.returned_isSome_iff]
  constructor
  · intro h
    exact h.1
  · intro hsome
    refine ⟨hsome, fun hr => ?_⟩
    obtain ⟨verdict, hv⟩ := Option.isSome_iff_exists.mp hsome
    have hne := hexit.returned_ne_true_of_reports hr
    rw [hv] at hne ⊢
    cases verdict with
    | true => exact absurd rfl hne
    | false => rfl

def unresolvedHost : NetEnv := { deafServer with gethostbyname := fun _ => none }

theorem unresolvedHost_crashes :
    ReportsError unresolvedHost (getStringUTFChars [65]) 80
        (storedMessage (getStringUTFChars [65])) ∧
      (sendHttpPostStored unresolvedHost [65] [65] 80).returned = none := by
  refine ⟨.gethostbyname rfl, ?_⟩
  have hexit := sendHttpPostStored_exit unresolvedHost [65] [65] 80
  apply Option.not_isSome_iff_eq_none.mp
  intro hsome
  rcases (hexit.returned_isSome_iff.mp hsome).2 with hs | hh
  · exact absurd hs (by decide)
  · contradiction

end TaintdroidHack
