import TaintdroidHack.DemoContacts
import TaintdroidHack.FileRuns
import TaintdroidHack.SerialTasks

/-! `PostTask.doInBackground` in pieces, between which the main thread goes on:
writing the file, handing over the body, waiting for the response, and each of
its lines. -/

namespace TaintdroidHack

open Framing Transfer SerialTasks

/-- The calls of `send_http_post` until its request is out: a way out on the way
there, or the state in which the response is awaited. -/
def sendRequest (env : NetEnv) (host : Bytes) (port : Int) (formatted : Option Bytes) :
    Except PostRun NetState :=
  let s := enterPost
  match formatted with
  | none => .error ⟨none, s⟩
  | some message =>
    if env.socket < 0 then
      .error ⟨some false, s.emit (.logi "error opening the socket")⟩
    else
      let s := s.emit (.acquire (.socket env.socket))
      match env.gethostbyname host with
      | none => .error ⟨none, s⟩
      | some server =>
        if env.connect (serverAddress server port) < 0 then
          let s := s.emit (.logi "error connecting")
          .error ⟨some false, s.emit (.release (.socket env.socket))⟩
        else
          let out := sendLoop env message s
          if out.exit = .error then
            .error ⟨some false, out.state.emit (.logi "error writing message to socket")⟩
          else .ok out.state

def receiveResponse (env : NetEnv) (s : NetState) : PostRun :=
  let inp := receiveLoop env s
  if inp.exit = .error then
    ⟨some false, inp.state.emit (.logi "error reading response from socket")⟩
  else if inp.moved = toInt (responseSize - 1) then
    ⟨some false, inp.state.emit (.logi "error storing complete response from socket")⟩
  else
    let s := inp.state.emit (.logResponse (cString inp.state.response))
    let s := s.emit (.release (.socket env.socket))
    let s := s.emit (.release (.chars .content))
    ⟨some true, s.emit (.release (.chars .host))⟩

def afterRequest (env : NetEnv) : Except PostRun NetState → PostRun
  | .error run => run
  | .ok s => receiveResponse env s

theorem postFormatted_eq (env : NetEnv) (host : Bytes) (port : Int) (formatted : Option Bytes) :
    postFormatted env host port formatted =
      afterRequest env (sendRequest env host port formatted) := by
  cases formatted with
  | none => rfl
  | some message =>
    rw [postFormatted, sendRequest]
    dsimp only
    by_cases hs : env.socket < 0
    · rw [if_pos hs, if_pos hs, afterRequest]
    · rw [if_neg hs, if_neg hs]
      cases env.gethostbyname host with
      | none => rfl
      | some server =>
        dsimp only
        by_cases hc : env.connect (serverAddress server port) < 0
        · rw [if_pos hc, if_pos hc, afterRequest]
        · rw [if_neg hc, if_neg hc]
          by_cases hwe : (sendLoop env message
              (enterPost.emit (.acquire (.socket env.socket)))).exit = .error
          · rw [if_pos hwe, if_pos hwe, afterRequest]
          · rw [if_neg hwe, if_neg hwe]
            rfl

theorem receiveResponse_returned (env : NetEnv) (s : NetState) :
    (receiveResponse env s).returned.isSome := by
  rw [receiveResponse]
  dsimp only
  split_ifs <;> rfl

theorem sendHttpPostStored_eq (env : NetEnv) (content_ host_ : JString) (port : Int) :
    sendHttpPostStored env content_ host_ port =
      afterRequest env (sendRequest env (getStringUTFChars host_) port
        (storedMessage (getStringUTFChars content_))) := by
  rw [sendHttpPostStored, postFormatted_eq]

/-- The bodies are those that have reached the other side or, on the routes
through the HTTP library, that the library has taken before the response is
asked for. -/
structure World where
  fs : FileSystem
  demo : DemoState
  bodies : List Bytes

def World.posted (world : World) (run : TaskRun) : World :=
  { world with fs := run.fs, bodies := world.bodies ++ run.body.toList }

/-- How far an upload has come. What its surroundings do is settled when it
begins, but for the lines of the response, which need not come to an end. -/
inductive Stage where
  | begun
  | written (env : TaskEnv) (filesDir : JString)
  | bytes (env : TaskEnv) (content : Bytes)
  | sent (env : TaskEnv)
  | reading (env : TaskEnv) (lines : List JString)
  | requested (env : TaskEnv) (s : NetState)

/-- What a task keeps between its pieces: `i` is the counter of the loop in
`generateContacts`. -/
structure Held where
  i : Nat
  stage : Stage

/-- What one piece of work meets. `uncaught` is an exception or an error that
nothing catches, thrown before the piece has changed anything outside. -/
structure Answer where
  env : TaskEnv
  line : Except IOException (Option JString)
  applies : Bool
  uncaught : Bool

abbrev WorkPiece := Piece Held World (List Int) (Option TaskResult)

def goesOn (stage : Stage) (world : World) : WorkPiece := .continues ⟨0, stage⟩ world

def ends (result : Option TaskResult) (world : World) : WorkPiece :=
  match result with
  | none => .throws world
  | some result => .returns world (some result)

-- A call that does not return has sent nothing.
def leaves (run : TaskRun) (world : World) : WorkPiece :=
  match run.result with
  | none => .throws world
  | some result => .returns (world.posted run) (some result)

def encodes (env : TaskEnv) (str : JString) (world : World) : WorkPiece :=
  match getBytes env str with
  | none => ends (some unexpected) world
  | some bytes => goesOn (.bytes env bytes) world

def wireBody (wire : Bytes) : Option Bytes :=
  (readMessage (ascii "Content-Length: ") wire).map Prod.fst

def sends (env : TaskEnv) (world : World) : Except PostRun NetState → WorkPiece
  | .error run => leaves (networkResult run world.fs) world
  | .ok s =>
    goesOn (.requested env s) { world with bodies := world.bodies ++ (wireBody s.wire).toList }

def PostTask.begins (task : PostTask) (strings : List JString) (env : TaskEnv) (world : World) :
    WorkPiece :=
  let str := content strings
  match task.securityLevel with
  | .REGULAR => encodes env str world
  | .OBFUSCATED_JAVA => encodes env (encodingTrick (some str)) world
  | .OBFUSCATED_NATIVE_NETWORK =>
    match task.port with
    | none => ends none world
    | some port => sends env world (sendRequest env.net (getStringUTFChars task.address) port
        (storedMessage (getStringUTFChars str)))
  | .OBFUSCATED_NATIVE_UNTAINT =>
    match (untaint env.heap env.self env.iref).returned with
    | none => ends none world
    | some _ => encodes env str world
  | .OBFUSCATED_NATIVE_FILESYSTEM =>
    match task.filesDir with
    | none => ends none world
    | some filesDir =>
      goesOn (.written env filesDir)
        { world with fs := (writeToFile env.out world.fs str filesDir).fs }

def HttpEnv.opensResponse (http : HttpEnv) : Except IOException Unit := do
  let _ ← http.getResponseCode
  http.getInputStream

/-- The piece that comes next where nothing throws. -/
def PostTask.goes (task : PostTask) (strings : List JString) (stage : Stage) (world : World)
    (answer : Answer) : WorkPiece :=
  match stage with
  | .begun => task.begins strings answer.env world
  | .written env filesDir =>
    match (readFromFile env.inp world.fs filesDir).returned with
    | none => ends none world
    | some filesystem => encodes env filesystem world
  | .bytes env content =>
    if env.http.acceptsUrl task.buildUrl then
      match env.http.send with
      | .error e => ends (some (caught e)) world
      | .ok () => goesOn (.sent env) { world with bodies := world.bodies ++ [content] }
    else ends none world
  | .sent env =>
    match env.http.opensResponse with
    | .error e => ends (some (caught e)) world
    | .ok () => goesOn (.reading env []) world
  | .reading env lines =>
    match answer.line with
    | .error e => ends (some (caught e)) world
    | .ok none => ends (some .success) world
    | .ok (some line) => goesOn (.reading env (lines ++ [line])) world
  | .requested env s => ends (networkResult (receiveResponse env.net s) world.fs).result world

def PostTask.work (task : PostTask) (strings : List JString) (stage : Stage) (world : World)
    (answer : Answer) : WorkPiece :=
  if answer.uncaught then .throws world else task.goes strings stage world answer

/-- The surroundings of an upload whose response has been read with `lines`. -/
def TaskEnv.reading (env : TaskEnv) (lines : Except IOException (List JString)) : TaskEnv :=
  { env with http := { env.http with lines := lines } }

def javaRun (task : PostTask) (env : TaskEnv) (fs : FileSystem) (content : Bytes) : TaskRun :=
  let run := javaSendDataTo task env.http content
  ⟨run.result, run.request.map HttpRequest.body, fs⟩

def caughtResult {α : Type} : Except IOException α → TaskResult
  | .error e => caught e
  | .ok _ => .success

end TaintdroidHack
