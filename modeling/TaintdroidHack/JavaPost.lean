import TaintdroidHack.Native

/-! `PostTask.javaSendDataTo`: one post through the HTTP library, and the result
that each of its failures is reported with. -/

namespace TaintdroidHack

open Framing

inductive SecurityLevel where
  | REGULAR
  | OBFUSCATED_JAVA
  | OBFUSCATED_NATIVE_NETWORK
  | OBFUSCATED_NATIVE_UNTAINT
  | OBFUSCATED_NATIVE_FILESYSTEM
  deriving DecidableEq, Repr

inductive TaskResult where
  | success
  | error (message : String)
  deriving DecidableEq, Repr

def TaskResult.isError : TaskResult → Bool
  | .success => false
  | .error _ => true

def Accepted (result : Option TaskResult) : Prop :=
  ∃ r, result = some r ∧ r.isError = false

theorem accepted_iff (result : Option TaskResult) :
    Accepted result ↔ result = some .success := by
  constructor
  · intro hacc
    obtain ⟨r, hr, hok⟩ := hacc
    cases r with
    | success => exact hr
    | error _ => contradiction
  · intro hr
    exact ⟨_, hr, rfl⟩

-- The code units of a literal, whose characters all lie in the basic plane.
def jstring (s : String) : JString := s.toList.map fun c => UInt16.ofNat c.toNat

structure PostTask where
  address : JString
  path : Option JString
  port : Option Int
  useSsl : Bool
  securityLevel : SecurityLevel
  filesDir : Option JString

def PostTask.new (address : JString) (port : Int) (securityLevel : SecurityLevel) : PostTask where
  address := address
  path := none
  port := some port
  useSsl := false
  securityLevel := securityLevel
  filesDir := none

def PostTask.newWithFilesDir (address : JString) (port : Int) (filesDir : JString)
    (securityLevel : SecurityLevel) : PostTask :=
  { PostTask.new address port securityLevel with filesDir := some filesDir }

def PostTask.buildUrl (task : PostTask) : JString :=
  jstring "http" ++ (if task.useSsl then jstring "s" else []) ++ jstring "://" ++ task.address ++
    (match task.port with
      | some port => jstring ":" ++ (decimalInt port).map UInt8.toUInt16
      | none => []) ++
    jstring "/" ++
    (match task.path with
      | some path => path ++ jstring "/"
      | none => [])

inductive IOException where
  | unsupportedEncodingException
  | protocolException
  | connectException
  | other
  deriving DecidableEq, Repr

/-- How each step of the library ends. `lines` is the loop of `readLine`. -/
structure HttpEnv where
  acceptsUrl : JString → Bool
  openConnection : Except IOException Unit
  setRequestMethod : Except IOException Unit
  getOutputStream : Except IOException Unit
  write : Except IOException Unit
  newString : Except IOException Unit
  flush : Except IOException Unit
  close : Except IOException Unit
  getResponseCode : Except IOException Nat
  getInputStream : Except IOException Unit
  lines : Except IOException (List JString)

structure HttpRequest where
  url : JString
  method : String
  contentType : String
  contentLength : Bytes
  acceptEncoding : String
  body : Bytes

def HttpEnv.send (http : HttpEnv) : Except IOException Unit := do
  http.openConnection
  http.setRequestMethod
  http.getOutputStream
  http.write
  http.newString
  http.flush
  http.close

def HttpEnv.receive (http : HttpEnv) : Except IOException (Nat × List JString) := do
  let code ← http.getResponseCode
  http.getInputStream
  let lines ← http.lines
  return (code, lines)

def postRequest (url : JString) (content : Bytes) : HttpRequest where
  url := url
  method := "POST"
  contentType := "application/x-www-form-urlencoded; charset=UTF-8"
  contentLength := decimal content.length
  acceptEncoding := "utf-8"
  body := content

def caught : IOException → TaskResult
  | .unsupportedEncodingException => .error "An unknown error occurred. Try again"
  | .protocolException => .error "An unknown error occurred. Try again"
  | .connectException => .error "Could not reach remote server."
  | .other => .error "Unknown error occurred, when trying to send data to server"

/-- `result` is `none` when the call ends with an uncaught exception, and
`request` is what was handed over for sending before the response was asked for. -/
structure JavaRun where
  result : Option TaskResult
  request : Option HttpRequest

def javaSendDataTo (task : PostTask) (http : HttpEnv) (content : Bytes) : JavaRun :=
  let url := task.buildUrl
  -- `MalformedURLException` leaves `buildUrl` as a `RuntimeException`
  if http.acceptsUrl url then
    match http.send with
    | .error e => ⟨some (caught e), none⟩
    | .ok () =>
      let request := postRequest url content
      match http.receive with
      | .error e => ⟨some (caught e), some request⟩
      | .ok _ => ⟨some .success, some request⟩
  else ⟨none, none⟩

structure HttpEnv.Succeeds (http : HttpEnv) (url : JString) : Prop where
  url : http.acceptsUrl url = true
  send : http.send = .ok ()
  receive : ∃ answer, http.receive = .ok answer

theorem caught_isError (e : IOException) : (caught e).isError = true := by
  cases e <;> rfl

theorem caught_ne_success (e : IOException) : caught e ≠ .success := by
  intro he
  have hh := caught_isError e
  rw [he] at hh
  contradiction

theorem javaSendDataTo_of_succeeds {task : PostTask} {http : HttpEnv}
    (h : http.Succeeds task.buildUrl) (content : Bytes) :
    javaSendDataTo task http content =
      ⟨some .success, some (postRequest task.buildUrl content)⟩ := by
  obtain ⟨answer, ha⟩ := h.receive
  simp only [javaSendDataTo, h.url, if_true, h.send, ha]

theorem javaSendDataTo_success_iff (task : PostTask) (http : HttpEnv) (content : Bytes) :
    (javaSendDataTo task http content).result = some .success ↔ http.Succeeds task.buildUrl := by
  constructor
  · intro hr
    rw [javaSendDataTo] at hr
    split at hr
    · rename_i hu
      split at hr
      · exact absurd (Option.some.inj hr) (caught_ne_success _)
      · rename_i hs
        dsimp only at hr
        split at hr
        · exact absurd (Option.some.inj hr) (caught_ne_success _)
        · rename_i answer ha
          exact ⟨hu, hs, answer, ha⟩
    · contradiction
  · intro h
    rw [javaSendDataTo_of_succeeds h]

theorem HttpEnv.receive_eq_ok_iff (http : HttpEnv) :
    (∃ answer, http.receive = .ok answer) ↔
      (∃ code, http.getResponseCode = .ok code) ∧ http.getInputStream = .ok () ∧
        ∃ lines, http.lines = .ok lines := by
  rw [receive]
  cases http.getResponseCode <;> cases http.getInputStream <;> cases http.lines <;>
    simp [bind, Except.bind, pure, Except.pure]

end TaintdroidHack
