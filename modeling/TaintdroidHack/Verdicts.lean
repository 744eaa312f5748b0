import TaintdroidHack.ReceiveVerdict
import TaintdroidHack.JavaPost

/-! The verdicts of the native and of the Java upload on one response: the one
counts its bytes, the other looks at its status. -/

namespace TaintdroidHack

open Framing Transfer

structure Response where
  version : Bytes
  status : Nat
  reason : Bytes
  headers : List Bytes
  body : Bytes
  final : 200 ≤ status ∧ status < 300 ∨ 400 ≤ status ∧ status < 600
  version_isLine : IsLine version
  cr_not_mem_reason : 13 ∉ reason
  headers_isLine : ∀ l ∈ headers, IsLine l

def Response.statusLine (r : Response) : Bytes :=
  r.version ++ ascii " " ++ decimal r.status ++ ascii " " ++ r.reason

def Response.bytes (r : Response) : Bytes :=
  joinLines (r.statusLine :: r.headers) ++ headEnd ++ r.body

def Delivers (env : NetEnv) (r : Response) : Prop :=
  ∃ chunks : List Bytes, (∀ c ∈ chunks, c ≠ []) ∧ chunks.flatten = r.bytes ∧
    ∀ i, env.reads i = some (chunks.getD i [])

theorem Delivers.arrives {env : NetEnv} {r : Response} (h : Delivers env r) :
    Arrives env r.bytes := h

/-- The library throws on an error status and otherwise yields the body. -/
structure HttpEnv.Answers (http : HttpEnv) (url : JString) (r : Response) : Prop where
  url : http.acceptsUrl url = true
  send : http.send = .ok ()
  status : http.getResponseCode = .ok r.status
  stream : http.getInputStream = .ok () ↔ r.status < 400
  lines : r.status < 400 → ∃ lines, http.lines = .ok lines

theorem HttpEnv.Answers.succeeds_iff {http : HttpEnv} {url : JString} {r : Response}
    (h : http.Answers url r) : http.Succeeds url ↔ r.status < 400 := by
  constructor
  · intro hs
    exact h.stream.mp ((http.receive_eq_ok_iff).mp hs.receive).2.1
  · intro hlt
    exact ⟨h.url, h.send,
      (http.receive_eq_ok_iff).mpr ⟨⟨_, h.status⟩, h.stream.mpr hlt, h.lines hlt⟩⟩

theorem native_verdict_iff {env : NetEnv} {content_ host_ : JString} {port : Int} {r : Response}
    (hm : (message (getStringUTFChars content_)).isSome)
    (hc : Connected env (getStringUTFChars host_) port) (hw : ∀ i, env.writes i ≠ none)
    (hd : Delivers env r) :
    (sendHttpPost env content_ host_ port).returned = some true ↔ r.bytes.length ≤ 4094 := by
  obtain ⟨m, hm⟩ := Option.isSome_iff_exists.mp hm
  have hexit := sendHttpPost_exit env content_ host_ port
  rw [hm] at hexit
  have hwrites : ¬ Fails env.writes m.length := by
    intro hfails
    obtain ⟨k, -, -, hk⟩ := hfails
    exact hw k hk
  exact hexit.returned_true_iff_arrives hc hwrites hd.arrives

theorem java_verdict_iff {task : PostTask} {http : HttpEnv} {content : Bytes} {r : Response}
    (ha : http.Answers task.buildUrl r) :
    Accepted (javaSendDataTo task http content).result ↔ r.status < 400 := by
  rw [accepted_iff, javaSendDataTo_success_iff, ha.succeeds_iff]

/-- The native side judges a response by its length and Java by its status: the
verdicts agree exactly where both come to the same. -/
theorem verdicts_agree_iff (env : NetEnv) (content_ host_ : JString) (port : Int)
    (task : PostTask) (http : HttpEnv) (content : Bytes) (r : Response)
    (hm : (message (getStringUTFChars content_)).isSome)
    (hc : Connected env (getStringUTFChars host_) port) (hw : ∀ i, env.writes i ≠ none)
    (hd : Delivers env r) (ha : http.Answers task.buildUrl r) :
    ((sendHttpPost env content_ host_ port).returned = some true ↔
        Accepted (javaSendDataTo task http content).result) ↔
      (r.bytes.length ≤ 4094 ↔ r.status < 400) := by
  have hnative : (sendHttpPost env content_ host_ port).returned = some true ↔
      r.bytes.length ≤ 4094 := native_verdict_iff hm hc hw hd
  have hjava : Accepted (javaSendDataTo task http content).result ↔ r.status < 400 :=
    java_verdict_iff ha
  rw [hnative, hjava]

def answeringServer (r : Response) : NetEnv :=
  { deafServer with
    writes := fun _ => some 1000
    reads := fun i => some ([r.bytes].getD i []) }

theorem answeringServer_delivers (r : Response) : Delivers (answeringServer r) r := by
  refine ⟨[r.bytes], ?_, List.append_nil _, fun _ => rfl⟩
  intro c hc
  rw [List.mem_singleton.mp hc]
  simp [Response.bytes, headEnd]

theorem answeringServer_connected (r : Response) (host : Bytes) (port : Int) :
    Connected (answeringServer r) host port :=
  ⟨Int.natCast_nonneg 3, ⟨0x0100007f⟩, rfl, Int.le_refl 0⟩

def answeringHttp (r : Response) : HttpEnv where
  acceptsUrl _ := true
  openConnection := .ok ()
  setRequestMethod := .ok ()
  getOutputStream := .ok ()
  write := .ok ()
  newString := .ok ()
  flush := .ok ()
  close := .ok ()
  getResponseCode := .ok r.status
  getInputStream := if r.status < 400 then .ok () else .error .other
  lines := .ok []

theorem answeringHttp_answers (r : Response) (url : JString) : (answeringHttp r).Answers url r where
  url := rfl
  send := rfl
  status := rfl
  stream := by simp [answeringHttp]
  lines _ := ⟨[], rfl⟩

def serverError : Response where
  version := ascii "HTTP/1.0"
  status := 500
  reason := ascii "Internal Server Error"
  headers := []
  body := []
  final := .inr (by decide)
  version_isLine := by decide
  cr_not_mem_reason := by decide
  headers_isLine _ hl := absurd hl List.not_mem_nil

def emptyResponse : Response where
  version := ascii "HTTP/1.0"
  status := 204
  reason := []
  headers := []
  body := []
  final := .inl (by decide)
  version_isLine := by decide
  cr_not_mem_reason := List.not_mem_nil
  headers_isLine _ hl := absurd hl List.not_mem_nil

theorem serverError_length : serverError.bytes.length ≤ 4094 := by
  have hd : (decimal serverError.status).length ≤ 3 :=
    (length_decimal_le_iff (by decide)).mpr (by decide)
  have hv : serverError.version.length = 8 := by decide
  have hr : serverError.reason.length = 21 := by decide
  have hs : (ascii " ").length = 1 := by decide
  have hb : serverError.bytes = serverError.statusLine ++ headEnd ++ [] := rfl
  simp only [hb, Response.statusLine, List.length_append, hv, hr, hs, headEnd, List.length_cons,
    List.length_nil]
  omega

theorem verdicts_agree_iff_serverError :
    ((sendHttpPost (answeringServer serverError) [65] [65] 80).returned = some true ↔
        Accepted
          (javaSendDataTo (.new [65] 80 .REGULAR) (answeringHttp serverError) [65, 10]).result) ↔
      (serverError.bytes.length ≤ 4094 ↔ serverError.status < 400) :=
  verdicts_agree_iff (answeringServer serverError) [65] [65] 80 (.new [65] 80 .REGULAR)
    (answeringHttp serverError) [65, 10] serverError message_letter_isSome
    (answeringServer_connected serverError _ 80) (fun _ => by simp [answeringServer])
    (answeringServer_delivers serverError) (answeringHttp_answers serverError _)

theorem serverError_accepted_natively :
    (sendHttpPost (answeringServer serverError) [65] [65] 80).returned = some true ∧
      ¬ Accepted
          (javaSendDataTo (.new [65] 80 .REGULAR) (answeringHttp serverError) [65, 10]).result := by
  constructor
  · apply (native_verdict_iff message_letter_isSome (answeringServer_connected serverError _ 80)
      (fun _ => by simp [answeringServer]) (answeringServer_delivers serverError)).mpr
    exact serverError_length
  · rw [java_verdict_iff (answeringHttp_answers serverError _)]
    decide

end TaintdroidHack
