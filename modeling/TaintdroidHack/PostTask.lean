import TaintdroidHack.Untaint
import TaintdroidHack.NativeCalls

/-! `PostTask.doInBackground`: the five routes by which the same text is sent. -/

namespace TaintdroidHack

open Framing Transfer Memory

def symbols : JString :=
  jstring (" 0123456789abcdefghijklmnopqrstuvwxyz" ++
    "ABCDEFGHIJKLMNOPQRSTUVWXYZäöüÄÖÜ~`!@#$%^&*()-=_+[]\x7b\x7d" ++
    "\\|;',./:\"<>?\n")

def appendSymbol (c : UInt16) (out : JString) : JString → JString
  | [] => out
  | s :: rest => if c = s then out ++ [s] else appendSymbol c out rest

def encodingTrick : Option JString → JString
  | none => []
  | some in_ => in_.foldl (fun out c => appendSymbol c out symbols) []

theorem appendSymbol_eq (c : UInt16) (out syms : JString) :
    appendSymbol c out syms = out ++ [c].filter (· ∈ syms) := by
  induction syms with
  | nil => simp [appendSymbol]
  | cons s rest ih =>
    by_cases hc : c = s
    · simp [appendSymbol, hc]
    · simpa [appendSymbol, hc, List.filter_cons] using ih

theorem encodingTrick_eq_filter (in_ : JString) :
    encodingTrick (some in_) = in_.filter (· ∈ symbols) := by
  have hfold : ∀ out : JString, in_.foldl (fun out c => appendSymbol c out symbols) out =
      out ++ in_.filter (· ∈ symbols) := by
    induction in_ with
    | nil => simp
    | cons c in_ ih =>
      intro out
      rw [List.foldl_cons, ih, appendSymbol_eq, List.append_assoc, ← List.filter_append,
        List.singleton_append]
  exact hfold []

/-- `encodingTrick` is the filter that keeps the code units of the table. -/
theorem encodingTrick_keeps_symbols (in_ : JString) :
    encodingTrick (some in_) = in_.filter (· ∈ symbols) ∧
      (encodingTrick (some in_)).Sublist in_ ∧
      (∀ u, (encodingTrick (some in_)).count u = if u ∈ symbols then in_.count u else 0) ∧
      encodingTrick (some (encodingTrick (some in_))) = encodingTrick (some in_) ∧
      (∀ b, encodingTrick (some (in_ ++ b)) = encodingTrick (some in_) ++ encodingTrick (some b)) ∧
      (encodingTrick (some in_)).length ≤ in_.length ∧
      (encodingTrick (some in_) = in_ ↔ ∀ u ∈ in_, u ∈ symbols) := by
  have hcount : ∀ u, (in_.filter (· ∈ symbols)).count u =
      if u ∈ symbols then in_.count u else 0 := by
    intro u
    by_cases hu : u ∈ symbols
    · rw [if_pos hu]
      exact List.count_filter (decide_eq_true hu)
    · rw [if_neg hu]
      apply List.count_eq_zero_of_not_mem
      intro hm
      exact hu (of_decide_eq_true (List.mem_filter.mp hm).2)
  have htwice : (in_.filter (· ∈ symbols)).filter (· ∈ symbols) = in_.filter (· ∈ symbols) := by
    rw [List.filter_filter]
    simp only [Bool.and_self]
  have hself : in_.filter (· ∈ symbols) = in_ ↔ ∀ u ∈ in_, u ∈ symbols := by
    simp only [List.filter_eq_self, decide_eq_true_eq]
  refine ⟨encodingTrick_eq_filter in_, ?_⟩
  simp only [encodingTrick_eq_filter]
  exact ⟨List.filter_sublist, hcount, htwice, fun b => List.filter_append in_ b,
    List.length_filter_le _ _, hself⟩

theorem plain_of_mem_symbols {u : UInt16} (hu : u ∈ symbols) : Utf.Plain u := by
  have hall : symbols.all (fun u => decide (Utf.Plain u)) = true := by decide
  exact of_decide_eq_true (List.all_eq_true.mp hall u hu)

def LINE_SEP : JString := jstring "\n"

def content (strings : List JString) : JString :=
  strings.foldl (fun content str => content ++ str ++ LINE_SEP) []

/-- What the surroundings of one task do: the HTTP library, the sockets, the
two streams, the charset lookup, and the virtual machine that `untaint` meets. -/
structure TaskEnv where
  http : HttpEnv
  net : NetEnv
  out : StreamOutcome
  inp : StreamOutcome
  utf8 : Bool
  heap : Heap
  self : Thread
  iref : IndirectRef

structure TaskRun where
  result : Option TaskResult
  body : Option Bytes
  fs : FileSystem

def getBytes (env : TaskEnv) (str : JString) : Option Bytes :=
  if env.utf8 then some (Utf.encodeUtf8 str) else none

def unexpected : TaskResult := .error "Got an unexpected error. Try again"

def sendBytes (task : PostTask) (env : TaskEnv) (fs : FileSystem) (str : JString) : TaskRun :=
  match getBytes env str with
  | none => ⟨some unexpected, none, fs⟩
  | some bytes =>
    let run := javaSendDataTo task env.http bytes
    ⟨run.result, run.request.map HttpRequest.body, fs⟩

-- The body is what the other side reads from the wire.
def networkResult (run : PostRun) (fs : FileSystem) : TaskRun :=
  ⟨run.returned.map fun sent =>
      if sent then .success else .error "An unknown error occured while sending data",
    (readMessage (ascii "Content-Length: ") run.state.wire).map Prod.fst, fs⟩

def doInBackground (task : PostTask) (env : TaskEnv) (fs : FileSystem) (strings : List JString) :
    TaskRun :=
  let str := content strings
  match task.securityLevel with
  | .REGULAR => sendBytes task env fs str
  | .OBFUSCATED_JAVA => sendBytes task env fs (encodingTrick (some str))
  | .OBFUSCATED_NATIVE_NETWORK =>
    match task.port with
    | none => ⟨none, none, fs⟩
    | some port => networkResult (sendHttpPost env.net str task.address port) fs
  | .OBFUSCATED_NATIVE_UNTAINT =>
    match (untaint env.heap env.self env.iref).returned with
    | none => ⟨none, none, fs⟩
    -- the reference that comes back is the one to `str`
    | some _ => sendBytes task env fs str
  | .OBFUSCATED_NATIVE_FILESYSTEM =>
    match task.filesDir with
    | none => ⟨none, none, fs⟩
    | some filesDir =>
      let written := (writeToFile env.out fs str filesDir).fs
      match (readFromFile env.inp written filesDir).returned with
      | none => ⟨none, none, written⟩
      | some filesystem => sendBytes task env written filesystem

theorem networkResult_success_iff (run : PostRun) (fs : FileSystem) :
    (networkResult run fs).result = some .success ↔ run.returned = some true := by
  rw [networkResult]
  cases run.returned with
  | none => simp
  | some sent => cases sent <;> simp

theorem doInBackground_network {task : PostTask} {port : Int}
    (hl : task.securityLevel = .OBFUSCATED_NATIVE_NETWORK) (hp : task.port = some port)
    (env : TaskEnv) (fs : FileSystem) (strings : List JString) :
    doInBackground task env fs strings =
      networkResult (sendHttpPost env.net (content strings) task.address port) fs := by
  simp only [doInBackground, hl, hp]

/-- `SuccessResult` on the native route: a request that was cut short passes for
a success exactly where a write that took nothing goes unnoticed. -/
theorem doInBackground_complete_iff {task : PostTask} {port : Int}
    (hl : task.securityLevel = .OBFUSCATED_NATIVE_NETWORK) (hp : task.port = some port)
    (env : TaskEnv) (fs : FileSystem) (strings : List JString) :
    ((doInBackground task env fs strings).result = some .success →
        message (getStringUTFChars (content strings)) =
          some (sendHttpPost env.net (content strings) task.address port).state.wire) ↔
      ¬ ∃ m, message (getStringUTFChars (content strings)) = some m ∧
        StallsUnnoticed env.net (getStringUTFChars task.address) port m := by
  rw [doInBackground_network hl hp, networkResult_success_iff]
  exact (sendHttpPost_exit env.net (content strings) task.address port).complete_iff

end TaintdroidHack
