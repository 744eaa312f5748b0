import TaintdroidHack.Routes

/-! The request of the native upload beside that of the regular one: the body
and the announced length, which each side computes from its own encoding. -/

namespace TaintdroidHack

open Framing

/-- The announced length and the body of a request, as they stand in its text. -/
def announced (request : Bytes) : Option (Bytes × Bytes) := do
  let (head, body) ← cutAt headEnd request
  let value ← headerValue (ascii "Content-Length: ") (splitLines head)
  return (value, body)

theorem announced_message {content m : Bytes} (h0 : 0 ∉ content) (hm : message content = some m) :
    announced m = some (decimal content.length, content) := by
  have hlines := requestHead_isLine content.length
  have hne : requestHead content.length ≠ [] := by simp [requestHead]
  rw [(message_eq_some h0 hm).1, announced, cutAt_joinLines hlines hne]
  simp [splitLines_joinLines hlines hne, headerValue_requestHead]

theorem javaSendDataTo_request {task : PostTask} {http : HttpEnv} {content : Bytes}
    {request : HttpRequest} (h : (javaSendDataTo task http content).request = some request) :
    request = postRequest task.buildUrl content := by
  rw [javaSendDataTo] at h
  split at h
  · split at h
    · contradiction
    · dsimp only at h
      split at h
      · exact (Option.some.inj h).symm
      · exact (Option.some.inj h).symm
  · contradiction

theorem getBytes_eq {env : TaskEnv} {str : JString} {bytes : Bytes}
    (h : getBytes env str = some bytes) : bytes = Utf.encodeUtf8 str := by
  unfold getBytes at h
  split at h
  · exact (Option.some.inj h).symm
  · contradiction

/-- Both requests announce and carry the same bytes exactly where the two
encodings agree: for texts without null and surrogate code units. -/
theorem requests_agree_iff {task : PostTask} {env : TaskEnv} {strings : List JString}
    {m bytes : Bytes} {request : HttpRequest}
    (hm : message (getStringUTFChars (content strings)) = some m)
    (hb : getBytes env (content strings) = some bytes)
    (hr : (javaSendDataTo task env.http bytes).request = some request) :
    announced m = some (request.contentLength, request.body) ↔
      ∀ u ∈ content strings, u ≠ 0 ∧ ¬ Utf.Surrogate u := by
  have hnative := announced_message (zero_not_mem_getStringUTFChars (content strings)) hm
  have hencode := Utf.encodeUtf8_eq_encodeModified_iff (content strings)
  rw [hnative, javaSendDataTo_request hr, getBytes_eq hb]
  constructor
  · intro he
    have hbody := (Prod.mk.inj (Option.some.inj he)).2
    exact hencode.mp hbody.symm
  · intro hplain
    have he : Utf.encodeUtf8 (content strings) = getStringUTFChars (content strings) :=
      hencode.mpr hplain
    rw [postRequest, he]

theorem requests_agree_iff_accent :
    ∃ m request, message (getStringUTFChars (content [[0xe9]])) = some m ∧
      (javaSendDataTo (.new [65] 80 .REGULAR) succeedingEnv.http [0xc3, 0xa9, 10]).request =
        some request ∧
      (announced m = some (request.contentLength, request.body) ↔
        ∀ u ∈ content [[0xe9]], u ≠ 0 ∧ ¬ Utf.Surrogate u) := by
  have h0 := zero_not_mem_getStringUTFChars (content [[0xe9]])
  obtain ⟨m, hm⟩ := message_of_length_lt h0 (by decide)
  have hbytes : getBytes succeedingEnv (content [[0xe9]]) = some [0xc3, 0xa9, 10] := by decide
  have hrun := javaSendDataTo_of_succeeds
    (succeedingEnv_http_succeeds (PostTask.new [65] 80 .REGULAR).buildUrl) [0xc3, 0xa9, 10]
  have hrequest := congrArg JavaRun.request hrun
  exact ⟨m, _, hm, hrequest, requests_agree_iff hm hbytes hrequest⟩

end TaintdroidHack
