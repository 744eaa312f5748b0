import TaintdroidHack.PostPieces

/-! The pieces of an upload add up to one call of `doInBackground`, whatever
happens between them: at each stage the world is the one that the call has led
to so far, and what is left of the call is known. -/

namespace TaintdroidHack

open Framing Transfer SerialTasks

/-- What is assumed of the answers: of the surroundings that are settled when an
upload begins, and of each line of the response. -/
structure Conditions where
  env : PostTask → List JString → FileSystem → TaskEnv → Prop
  line : Except IOException (Option JString) → Prop

def Conditions.Meets (ok : Conditions) (task : PostTask) (strings : List JString)
    (fs : FileSystem) (answer : Answer) : Stage → Prop
  | .begun => ok.env task strings fs answer.env
  | .reading _ _ => ok.line answer.line
  | _ => True

def FitsArray (task : PostTask) (strings : List JString) : Prop :=
  task.securityLevel = .OBFUSCATED_NATIVE_NETWORK →
    (getStringUTFChars (content strings)).length < 1000

variable {ok : Conditions} {task : PostTask} {strings : List JString} {w world : World}
  {env : TaskEnv} {stage : Stage}

/-- One call of `doInBackground` from beginning to end. -/
inductive WholeUpload (ok : Conditions) (task : PostTask) (strings : List JString) (w : World) :
    TaskResult → World → Prop where
  | mk {env : TaskEnv} {lines : Except IOException (List JString)} {result : TaskResult}
      (hok : ok.env task strings w.fs env) (hlines : ∀ e, lines = .error e → ok.line (.error e))
      (hfits : FitsArray task strings)
      (hr : (doInBackground task (env.reading lines) w.fs strings).result = some result) :
      WholeUpload ok task strings w result
        (w.posted (doInBackground task (env.reading lines) w.fs strings))

/-- Where an upload stands that began in the world `w`. What is left of it ends
as the whole call does. -/
inductive Underway (ok : Conditions) (task : PostTask) (strings : List JString) (w : World) :
    Stage → World → Prop where
  | begun : Underway ok task strings w .begun w
  | written {env : TaskEnv} {filesDir : JString} (hok : ok.env task strings w.fs env)
      (hl : task.securityLevel = .OBFUSCATED_NATIVE_FILESYSTEM)
      (hd : task.filesDir = some filesDir) :
      Underway ok task strings w (.written env filesDir)
        { w with fs := (writeToFile env.out w.fs (content strings) filesDir).fs }
  | bytes {env : TaskEnv} {body : Bytes} {fs : FileSystem} (hok : ok.env task strings w.fs env)
      (hfits : FitsArray task strings)
      (hrest : ∀ lines, doInBackground task (env.reading lines) w.fs strings =
        javaRun task (env.reading lines) fs body) :
      Underway ok task strings w (.bytes env body) { w with fs := fs }
  | sent {env : TaskEnv} {body : Bytes} {fs : FileSystem} (hok : ok.env task strings w.fs env)
      (hfits : FitsArray task strings)
      (hrest : ∀ lines, doInBackground task (env.reading lines) w.fs strings =
        ⟨some (caughtResult (env.reading lines).http.receive), some body, fs⟩) :
      Underway ok task strings w (.sent env) { w with fs := fs, bodies := w.bodies ++ [body] }
  | reading {env : TaskEnv} {body : Bytes} {fs : FileSystem} {read : List JString}
      (hok : ok.env task strings w.fs env) (hfits : FitsArray task strings)
      (hrest : ∀ lines, doInBackground task (env.reading lines) w.fs strings =
        ⟨some (caughtResult lines), some body, fs⟩) :
      Underway ok task strings w (.reading env read)
        { w with fs := fs, bodies := w.bodies ++ [body] }
  | requested {env : TaskEnv} {s : NetState} (hok : ok.env task strings w.fs env)
      (hfits : FitsArray task strings)
      (hrest : ∀ lines, doInBackground task (env.reading lines) w.fs strings =
        networkResult (receiveResponse env.net s) w.fs)
      (hwire : (receiveResponse env.net s).state.wire = s.wire) :
      Underway ok task strings w (.requested env s)
        { w with bodies := w.bodies ++ (wireBody s.wire).toList }

theorem sendBytes_fs (task : PostTask) (env : TaskEnv) (fs : FileSystem) (str : JString) :
    (sendBytes task env fs str).fs = fs := by
  rw [sendBytes]
  split <;> rfl

theorem doInBackground_written {filesDir : JString}
    (hl : task.securityLevel = .OBFUSCATED_NATIVE_FILESYSTEM) (hd : task.filesDir = some filesDir)
    (env : TaskEnv) (fs : FileSystem) (strings : List JString) :
    (doInBackground task env fs strings).fs =
      (writeToFile env.out fs (content strings) filesDir).fs := by
  simp only [doInBackground, hl, hd]
  split
  · rfl
  · exact sendBytes_fs _ _ _ _

/-- What the call as a whole leaves behind is there already, but for a body that
has not been sent yet. -/
theorem Underway.so_far (h : Underway ok task strings w stage world) :
    stage = .begun ∧ world = w ∨ stage ≠ .begun ∧ world.demo = w.demo ∧
      ∃ env, ok.env task strings w.fs env ∧
        ∀ lines, (doInBackground task (env.reading lines) w.fs strings).fs = world.fs ∧
          (world.bodies = w.bodies ∨ world.bodies =
            w.bodies ++ (doInBackground task (env.reading lines) w.fs strings).body.toList) := by
  cases h with
  | begun => exact .inl ⟨rfl, rfl⟩
  | @written env filesDir hok hl hd =>
    refine .inr ⟨by simp, rfl, env, hok, fun lines => ⟨?_, .inl rfl⟩⟩
    exact doInBackground_written hl hd (env.reading lines) w.fs strings
  | bytes hok _ hrest =>
    refine .inr ⟨by simp, rfl, _, hok, fun lines => ⟨?_, .inl rfl⟩⟩
    rw [hrest]
    rfl
  | sent hok _ hrest =>
    refine .inr ⟨by simp, rfl, _, hok, fun lines => ⟨?_, .inr ?_⟩⟩
    · rw [hrest]
    · rw [hrest]
      rfl
  | reading hok _ hrest =>
    refine .inr ⟨by simp, rfl, _, hok, fun lines => ⟨?_, .inr ?_⟩⟩
    · rw [hrest]
    · rw [hrest]
      rfl
  | requested hok _ hrest hwire =>
    refine .inr ⟨by simp, rfl, _, hok, fun lines => ⟨?_, .inr ?_⟩⟩
    · rw [hrest]
      rfl
    · rw [hrest, networkResult, hwire]
      rfl

/-- The conditions under which a piece throws, beside those that nothing in the
program speaks of. -/
def PostTask.DiesAt (task : PostTask) (strings : List JString) (env : TaskEnv) (fs : FileSystem) :
    Stage → Prop
  | .begun =>
    match task.securityLevel with
    | .OBFUSCATED_NATIVE_NETWORK =>
      1000 ≤ (getStringUTFChars (content strings)).length ∨
        0 ≤ env.net.socket ∧ env.net.gethostbyname (getStringUTFChars task.address) = none
    | .OBFUSCATED_NATIVE_UNTAINT => (untaint env.heap env.self env.iref).returned = none
    | _ => False
  | .written env filesDir => (readFromFile env.inp fs filesDir).returned = none
  | .bytes env _ => env.http.acceptsUrl task.buildUrl = false
  | _ => False

def Throws : WorkPiece → Prop
  | .throws _ => True
  | _ => False

theorem throws_ends_iff {result : Option TaskResult} : Throws (ends result world) ↔ result = none := by
  cases result <;> simp [ends, Throws]

theorem not_throws_encodes (env : TaskEnv) (str : JString) (world : World) :
    ¬ Throws (encodes env str world) := by
  rw [encodes]
  cases getBytes env str <;> exact id

theorem throws_sends_iff {port : Int} : Throws (sends env world (sendRequest env.net
      (getStringUTFChars task.address) port (storedMessage (getStringUTFChars (content strings))))) ↔
    1000 ≤ (getStringUTFChars (content strings)).length ∨
      0 ≤ env.net.socket ∧ env.net.gethostbyname (getStringUTFChars task.address) = none := by
  have hsome := (sendHttpPostStored_exit env.net (content strings) task.address
    port).returned_isSome_iff
  rw [storedMessage_isSome_iff (zero_not_mem_getStringUTFChars (content strings)),
    sendHttpPostStored_eq] at hsome
  have hnot := not_congr hsome
  rw [not_and_or, not_or, not_lt, not_lt, Option.not_isSome_iff_eq_none,
    Option.not_isSome_iff_eq_none] at hnot
  rw [← hnot]
  cases sendRequest env.net (getStringUTFChars task.address) port
      (storedMessage (getStringUTFChars (content strings))) with
  | error run =>
    rw [sends, leaves, afterRequest, networkResult]
    cases run.returned <;> simp [Throws]
  | ok s =>
    have hreturned := receiveResponse_returned env.net s
    rw [afterRequest]
    refine iff_of_false id fun hnone => ?_
    rw [hnone] at hreturned
    contradiction

theorem throws_begins_iff (hport : task.port.isSome) (hdir : task.securityLevel =
      .OBFUSCATED_NATIVE_FILESYSTEM → task.filesDir.isSome) :
    Throws (task.begins strings env world) ↔ task.DiesAt strings env world.fs .begun := by
  rw [PostTask.begins, PostTask.DiesAt]
  cases hl : task.securityLevel with
  | REGULAR => exact iff_of_false (not_throws_encodes _ _ _) id
  | OBFUSCATED_JAVA => exact iff_of_false (not_throws_encodes _ _ _) id
  | OBFUSCATED_NATIVE_NETWORK =>
    obtain ⟨port, hp⟩ := Option.isSome_iff_exists.mp hport
    rw [hp]
    exact throws_sends_iff
  | OBFUSCATED_NATIVE_UNTAINT =>
    cases hu : (untaint env.heap env.self env.iref).returned with
    | none => exact iff_of_true trivial rfl
    | some iref => exact iff_of_false (not_throws_encodes _ _ _) (by simp)
  | OBFUSCATED_NATIVE_FILESYSTEM =>
    obtain ⟨filesDir, hd⟩ := Option.isSome_iff_exists.mp (hdir hl)
    rw [hd]
    exact iff_of_false id id

theorem throws_work_iff (hport : task.port.isSome) (hdir : task.securityLevel =
      .OBFUSCATED_NATIVE_FILESYSTEM → task.filesDir.isSome) (answer : Answer) :
    Throws (task.work strings stage world answer) ↔
      answer.uncaught = true ∨ task.DiesAt strings answer.env world.fs stage := by
  rw [PostTask.work]
  by_cases hu : answer.uncaught = true
  · rw [if_pos hu]
    exact iff_of_true trivial (.inl hu)
  · rw [if_neg hu, or_iff_right hu]
    cases stage with
    | begun => exact throws_begins_iff hport hdir
    | written env filesDir =>
      rw [PostTask.goes, PostTask.DiesAt]
      cases (readFromFile env.inp world.fs filesDir).returned with
      | none => exact iff_of_true trivial rfl
      | some filesystem => exact iff_of_false (not_throws_encodes _ _ _) (by simp)
    | bytes env body =>
      rw [PostTask.goes, PostTask.DiesAt]
      cases env.http.acceptsUrl task.buildUrl with
      | false => exact iff_of_true trivial rfl
      | true =>
        cases env.http.send <;> exact iff_of_false id (by simp)
    | sent env =>
      rw [PostTask.goes]
      cases env.http.opensResponse <;> exact iff_of_false id id
    | reading env read =>
      rw [PostTask.goes]
      cases answer.line with
      | error e => exact iff_of_false id id
      | ok next => cases next <;> exact iff_of_false id id
    | requested env s =>
      obtain ⟨sent, hsent⟩ := Option.isSome_iff_exists.mp (receiveResponse_returned env.net s)
      rw [PostTask.goes, throws_ends_iff, networkResult, hsent]
      exact iff_of_false (by simp) id

inductive Stage.Next (answer : Answer) : Stage → Stage → Prop where
  | written {env : TaskEnv} {filesDir : JString} : Next answer .begun (.written env filesDir)
  | encoded {env : TaskEnv} {body : Bytes} : Next answer .begun (.bytes env body)
  | requested {env : TaskEnv} {s : NetState} : Next answer .begun (.requested env s)
  | readBack {env : TaskEnv} {filesDir : JString} {body : Bytes} :
      Next answer (.written env filesDir) (.bytes env body)
  | sent {env : TaskEnv} {body : Bytes} : Next answer (.bytes env body) (.sent env)
  | opened {env : TaskEnv} : Next answer (.sent env) (.reading env [])
  | line {env : TaskEnv} {read : List JString} {line : JString} (h : answer.line = .ok (some line)) :
      Next answer (.reading env read) (.reading env (read ++ [line]))

/-- How a piece of an upload can end: it sends no message on the way. -/
inductive PieceOf (answer : Answer) (stage : Stage) : WorkPiece → Prop where
  | goesOn {stage' : Stage} {world : World} (h : Stage.Next answer stage stage') :
      PieceOf answer stage (goesOn stage' world)
  | returns {result : TaskResult} {world : World} : PieceOf answer stage (.returns world (some result))
  | throws {world : World} : PieceOf answer stage (.throws world)

theorem pieceOf_ends {answer : Answer} (result : Option TaskResult) (world : World) :
    PieceOf answer stage (ends result world) := by
  cases result with
  | none => exact .throws
  | some result => exact .returns

theorem pieceOf_encodes {answer : Answer} (hnext : ∀ body, Stage.Next answer stage (.bytes env body))
    (str : JString) (world : World) : PieceOf answer stage (encodes env str world) := by
  rw [encodes]
  cases getBytes env str with
  | none => exact .returns
  | some body => exact .goesOn (hnext body)

theorem pieceOf_begins (task : PostTask) (strings : List JString) (answer : Answer) (world : World) :
    PieceOf answer .begun (task.begins strings answer.env world) := by
  rw [PostTask.begins]
  cases task.securityLevel with
  | REGULAR => exact pieceOf_encodes (fun _ => .encoded) _ _
  | OBFUSCATED_JAVA => exact pieceOf_encodes (fun _ => .encoded) _ _
  | OBFUSCATED_NATIVE_NETWORK =>
    cases task.port with
    | none => exact .throws
    | some port =>
      dsimp only
      cases sendRequest answer.env.net (getStringUTFChars task.address) port
          (storedMessage (getStringUTFChars (content strings))) with
      | error run =>
        rw [sends, leaves]
        cases (networkResult run world.fs).result with
        | none => exact .throws
        | some result => exact .returns
      | ok s => exact .goesOn .requested
  | OBFUSCATED_NATIVE_UNTAINT =>
    cases (untaint answer.env.heap answer.env.self answer.env.iref).returned with
    | none => exact .throws
    | some iref => exact pieceOf_encodes (fun _ => .encoded) _ _
  | OBFUSCATED_NATIVE_FILESYSTEM =>
    cases task.filesDir with
    | none => exact .throws
    | some filesDir => exact .goesOn .written

theorem pieceOf_work (task : PostTask) (strings : List JString) (stage : Stage) (world : World)
    (answer : Answer) : PieceOf answer stage (task.work strings stage world answer) := by
  rw [PostTask.work]
  split
  · exact .throws
  · cases stage with
    | begun => exact pieceOf_begins task strings answer world
    | written env filesDir =>
      rw [PostTask.goes]
      cases (readFromFile env.inp world.fs filesDir).returned with
      | none => exact .throws
      | some filesystem => exact pieceOf_encodes (fun _ => .readBack) _ _
    | bytes env body =>
      rw [PostTask.goes]
      cases env.http.acceptsUrl task.buildUrl with
      | false => exact .throws
      | true =>
        cases env.http.send with
        | error e => exact .returns
        | ok _ => exact .goesOn .sent
    | sent env =>
      rw [PostTask.goes]
      cases env.http.opensResponse with
      | error e => exact .returns
      | ok _ => exact .goesOn .opened
    | reading env read =>
      rw [PostTask.goes]
      cases hline : answer.line with
      | error e => exact .returns
      | ok next =>
        cases next with
        | none => exact .returns
        | some line => exact .goesOn (.line hline)
    | requested env s => exact pieceOf_ends _ _

/-- How many more pieces an upload takes whose response ends within `n` lines. -/
def Stage.cost (n : Nat) : Stage → Nat
  | .begun => n + 4
  | .written _ _ => n + 3
  | .bytes _ _ => n + 2
  | .sent _ => n + 1
  | .reading _ read => n - read.length
  | .requested _ _ => 0

/-- The response sends no line after its first `n`. -/
def Stage.Ends (n : Nat) (answer : Answer) : Stage → Prop
  | .reading _ read => read.length < n ∨ ¬ ∃ line, answer.line = .ok (some line)
  | _ => True

theorem Stage.Next.cost_lt {n : Nat} {answer : Answer} {stage stage' : Stage}
    (h : Stage.Next answer stage stage') (hends : stage.Ends n answer) :
    stage'.cost n < stage.cost n := by
  cases h with
  | written => exact Nat.lt_succ_self (n + 3)
  | encoded => show n + 2 < n + 4; omega
  | requested => exact Nat.succ_pos (n + 3)
  | readBack => exact Nat.lt_succ_self (n + 2)
  | sent => exact Nat.lt_succ_self (n + 1)
  | opened => exact Nat.lt_succ_self n
  | @line env read line h =>
    have hlt : read.length < n := hends.resolve_right fun hno => hno ⟨line, h⟩
    show n - (read ++ [line]).length < n - read.length
    rw [List.length_append, List.length_singleton]
    omega

end TaintdroidHack
