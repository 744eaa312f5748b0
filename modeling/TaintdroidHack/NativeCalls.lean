import TaintdroidHack.Verdicts
import TaintdroidHack.FileChannel

/-! Sequences of native calls and what they leave behind: sockets and string
buffers that were acquired and not given back. -/

namespace TaintdroidHack

open Framing Transfer

inductive NativeCall where
  | sendHttpPost (env : NetEnv) (content_ host_ : JString) (port : Int)
  | writeToFile (out : StreamOutcome) (content_ dir_ : JString)
  | readFromFile (inp : StreamOutcome) (path_ : JString)

def PostRun.trace (run : PostRun) : List Event := run.state.trace

def NativeCall.returns (fs : FileSystem) : NativeCall → Bool
  | .sendHttpPost env content_ host_ port =>
    (TaintdroidHack.sendHttpPost env content_ host_ port).returned.isSome
  | .writeToFile out content_ dir_ =>
    (TaintdroidHack.writeToFile out fs content_ dir_).returned.isSome
  | .readFromFile inp path_ => (TaintdroidHack.readFromFile inp fs path_).returned.isSome

def NativeCall.trace (fs : FileSystem) : NativeCall → List Event
  | .sendHttpPost env content_ host_ port =>
    (TaintdroidHack.sendHttpPost env content_ host_ port).trace
  | .writeToFile out content_ dir_ => (TaintdroidHack.writeToFile out fs content_ dir_).trace
  | .readFromFile inp path_ => (TaintdroidHack.readFromFile inp fs path_).trace

def NativeCall.fs (fs : FileSystem) : NativeCall → FileSystem
  | .sendHttpPost .. => fs
  | .writeToFile out content_ dir_ => (TaintdroidHack.writeToFile out fs content_ dir_).fs
  | .readFromFile inp path_ => (TaintdroidHack.readFromFile inp fs path_).fs

def callTraces (fs : FileSystem) : List NativeCall → Option (List (List Event))
  | [] => some []
  | c :: cs =>
    if c.returns fs then (callTraces (c.fs fs) cs).map (c.trace fs :: ·) else none

/-- The calls that take the one way on which `send_http_post` gives everything back. -/
def NativeCall.Clean : NativeCall → Prop
  | .sendHttpPost env content_ host_ port =>
    ∃ m, message (getStringUTFChars content_) = some m ∧
      Connected env (getStringUTFChars host_) port ∧ ¬ Fails env.writes m.length ∧
      Stops (readSizes env) 4095
  | .writeToFile .. => False
  | .readFromFile .. => False

theorem PostExit.balanced_iff {env : NetEnv} {host : Bytes} {port : Int} {formatted : Option Bytes}
    {run : PostRun} (h : PostExit env host port formatted run) (hr : run.returned.isSome) :
    Balanced run.trace ↔ run.returned = some true := by
  rw [PostRun.trace, ← balanced_resources]
  cases h with
  | unformatted _ => simp at hr
  | noHost _ _ _ => simp at hr
  | noSocket _ _ ht => simp [ht, Balanced, heldOnEntry, holdings]
  | noConnection _ _ _ _ ht => simp [ht, Balanced, heldOnEntry, holdings]
  | writeError _ _ _ ht => simp [ht, Balanced, heldOnEntry, holdings]
  | readError _ _ _ _ ht => simp [ht, Balanced, heldOnEntry, holdings]
  | overfull _ _ _ _ ht => simp [ht, Balanced, heldOnEntry, holdings]
  | success _ _ _ _ ht => simp [ht, Balanced, heldOnEntry, holdings]

theorem writeToFile_not_balanced (out : StreamOutcome) (fs : FileSystem)
    (content_ dir_ : JString) : ¬ Balanced (writeToFile out fs content_ dir_).trace := by
  rw [writeToFile]
  split <;> simp [Balanced, holdings]

theorem readFromFile_not_balanced (inp : StreamOutcome) (fs : FileSystem) (path_ : JString) :
    ¬ Balanced (readFromFile inp fs path_).trace := by
  rw [readFromFile]
  split <;> simp [Balanced, holdings]

theorem NativeCall.balanced_iff_clean {fs : FileSystem} {c : NativeCall} (hr : c.returns fs) :
    Balanced (c.trace fs) ↔ c.Clean := by
  cases c with
  | sendHttpPost env content_ host_ port =>
    have hexit := sendHttpPost_exit env content_ host_ port
    rw [NativeCall.returns] at hr
    rw [NativeCall.trace, NativeCall.Clean, hexit.balanced_iff hr]
    exact hexit.returned_true_iff
  | writeToFile out content_ dir_ =>
    exact iff_of_false (writeToFile_not_balanced out fs content_ dir_) id
  | readFromFile inp path_ => exact iff_of_false (readFromFile_not_balanced inp fs path_) id

theorem callTraces_cons {fs : FileSystem} {c : NativeCall} {cs : List NativeCall}
    {ts : List (List Event)} (h : callTraces fs (c :: cs) = some ts) :
    c.returns fs ∧ ∃ ts', callTraces (c.fs fs) cs = some ts' ∧ ts = c.trace fs :: ts' := by
  rw [callTraces] at h
  split_ifs at h with hr
  obtain ⟨ts', hts', rfl⟩ := Option.map_eq_some_iff.mp h
  exact ⟨hr, ts', hts', rfl⟩

theorem balanced_all_iff {fs : FileSystem} {calls : List NativeCall} {ts : List (List Event)}
    (h : callTraces fs calls = some ts) :
    (∀ t ∈ ts, Balanced t) ↔ ∀ c ∈ calls, c.Clean := by
  induction calls generalizing fs ts with
  | nil =>
    obtain rfl := Option.some.inj h
    simp
  | cons c cs ih =>
    obtain ⟨hr, ts', hts', rfl⟩ := callTraces_cons h
    rw [List.forall_mem_cons, List.forall_mem_cons, NativeCall.balanced_iff_clean hr, ih hts']

def LeavesNothing (ts : List (List Event)) : Prop :=
  (∀ t ∈ ts, Balanced t) ∧ ∀ n held, holdings held (ts.take n).flatten = some held

theorem leavesNothing_iff (ts : List (List Event)) :
    LeavesNothing ts ↔ ∀ t ∈ ts, Balanced t :=
  ⟨fun h => h.1, fun h => ⟨h, fun _ held =>
    holdings_flatten (fun t ht => h t (List.mem_of_mem_take ht)) held⟩⟩

/-- Calls that return give back what they have taken only if all of them are
uploads on the one clean way through. -/
theorem leavesNothing_iff_clean (fs : FileSystem) (calls : List NativeCall)
    (ts : List (List Event)) (h : callTraces fs calls = some ts) :
    LeavesNothing ts ↔ ∀ c ∈ calls, c.Clean :=
  (leavesNothing_iff ts).trans (balanced_all_iff h)

theorem callTraces_sendHttpPost (fs : FileSystem) {env : NetEnv} {content_ host_ : JString}
    {port : Int} (hm : (message (getStringUTFChars content_)).isSome)
    (hh : (env.gethostbyname (getStringUTFChars host_)).isSome) :
    callTraces fs [.sendHttpPost env content_ host_ port] =
      some [(sendHttpPost env content_ host_ port).trace] := by
  have hr : (sendHttpPost env content_ host_ port).returned.isSome :=
    (sendHttpPost_exit env content_ host_ port).returned_isSome_iff.mpr ⟨hm, .inr hh⟩
  rw [callTraces, NativeCall.returns, if_pos hr, NativeCall.trace, callTraces]
  rfl

def resettingServer : NetEnv := { deafServer with writes := fun _ => none }

-- Calls of every kind: the first upload gives everything back, the second keeps its socket.
def mixedCalls : List NativeCall :=
  [.writeToFile .ok [65] [47], .sendHttpPost deafServer [65] [65] 80, .readFromFile .ok [47],
    .sendHttpPost resettingServer [65] [65] 80, .writeToFile ⟨false, none⟩ [66] [47]]

theorem callTraces_mixed : (callTraces (fun _ => none) mixedCalls).isSome := by
  have hpost : ∀ env : NetEnv, (env.gethostbyname (getStringUTFChars [65])).isSome → ∀ fs,
      NativeCall.returns fs (.sendHttpPost env [65] [65] 80) = true := fun env hh _ =>
    (sendHttpPost_exit env [65] [65] 80).returned_isSome_iff.mpr ⟨message_letter_isSome, .inr hh⟩
  have hdeaf := hpost deafServer rfl
  have hresetting := hpost resettingServer rfl
  have hread : NativeCall.returns (writeToFile .ok (fun _ => none) [65] [47]).fs
      (.readFromFile .ok [47]) = true := by decide
  have hwrite : ∀ out content_ fs, NativeCall.returns fs (.writeToFile out content_ [47]) = true := by
    intro out content_ fs
    rw [NativeCall.returns, writeToFile]
    split <;> rfl
  simp only [mixedCalls, callTraces, NativeCall.fs, hwrite, hdeaf, hresetting, hread, if_true,
    Option.map_some, Option.isSome_some]

theorem leavesNothing_iff_clean_mixed :
    ∃ ts, callTraces (fun _ => none) mixedCalls = some ts ∧
      (LeavesNothing ts ↔ ∀ c ∈ mixedCalls, c.Clean) := by
  obtain ⟨ts, hts⟩ := Option.isSome_iff_exists.mp callTraces_mixed
  exact ⟨ts, hts, leavesNothing_iff_clean (fun _ => none) mixedCalls ts hts⟩

theorem resettingServer_leaves_socket :
    ∃ ts, callTraces (fun _ => none) [.sendHttpPost resettingServer [65] [65] 80] = some ts ∧
      ¬ LeavesNothing ts := by
  have hexit := sendHttpPost_exit resettingServer [65] [65] 80
  refine ⟨_, callTraces_sendHttpPost _ message_letter_isSome rfl, fun hleaves => ?_⟩
  have hbalanced := hleaves.1 _ (List.mem_singleton_self _)
  have hr := hexit.returned_isSome_iff.mpr ⟨message_letter_isSome, .inr rfl⟩
  obtain ⟨m, hm, -, hfails, -⟩ :=
    hexit.returned_true_iff.mp ((hexit.balanced_iff hr).mp hbalanced)
  exact hfails ⟨0, progress_zero _, message_length_pos (zero_not_mem_getStringUTFChars [65]) hm, rfl⟩

def NetEnv.connects (env : NetEnv) (host : Bytes) (port : Int) : Bool :=
  0 ≤ env.socket && (env.gethostbyname host).any fun server =>
    0 ≤ env.connect (serverAddress server port)

/-- What a call keeps when it returns. Of the error returns only the one after
a failed `connect` closes the socket. -/
def NativeCall.leaves : NativeCall → List Resource
  | .sendHttpPost env content_ host_ port =>
    if (TaintdroidHack.sendHttpPost env content_ host_ port).returned = some true then []
    else if env.connects (getStringUTFChars host_) port then
      [.socket env.socket, .chars .host, .chars .content]
    else [.chars .host, .chars .content]
  | .writeToFile .. => [.chars .dir, .chars .content]
  | .readFromFile .. => [.chars .path]

theorem connects_iff {env : NetEnv} {host : Bytes} {port : Int} :
    env.connects host port = true ↔ Connected env host port := by
  rw [NetEnv.connects, Bool.and_eq_true, decide_eq_true_iff, Option.any_eq_true]
  simp only [decide_eq_true_iff]
  exact ⟨fun ⟨hs, hp⟩ => ⟨hs, hp⟩, fun ⟨hs, hp⟩ => ⟨hs, hp⟩⟩

theorem PostExit.holdings_trace {env : NetEnv} {host : Bytes} {port : Int}
    {formatted : Option Bytes} {run : PostRun} (h : PostExit env host port formatted run)
    (hr : run.returned.isSome) : holdings [] run.trace =
      some (if run.returned = some true then []
        else if env.connects host port then [.socket env.socket, .chars .host, .chars .content]
        else [.chars .host, .chars .content]) := by
  rw [PostRun.trace, ← holdings_resources]
  cases h with
  | unformatted _ => simp at hr
  | noHost _ _ _ => simp at hr
  | noSocket _ hs ht =>
    have hno : ¬ env.connects host port = true := by
      rw [connects_iff]
      exact fun hc => absurd hc.socket (by omega)
    rw [ht, if_neg (by simp), if_neg hno]
    rfl
  | noConnection _ _ hh hc ht =>
    have hno : ¬ env.connects host port = true := by
      rw [connects_iff]
      intro ⟨_, server, hh', hc'⟩
      obtain rfl := Option.some.inj (hh.symm.trans hh')
      omega
    rw [ht, if_neg (by simp), if_neg hno]
    simp [heldOnEntry, holdings]
  | writeError _ hc _ ht =>
    rw [ht, if_neg (by simp), if_pos (connects_iff.mpr hc)]
    rfl
  | readError _ hc _ _ ht =>
    rw [ht, if_neg (by simp), if_pos (connects_iff.mpr hc)]
    rfl
  | overfull _ hc _ _ ht =>
    rw [ht, if_neg (by simp), if_pos (connects_iff.mpr hc)]
    rfl
  | success _ _ _ _ ht =>
    rw [ht, if_pos rfl]
    simp [heldOnEntry, holdings]

theorem NativeCall.holdings_trace {fs : FileSystem} {c : NativeCall} (hr : c.returns fs) :
    holdings [] (c.trace fs) = some c.leaves := by
  cases c with
  | sendHttpPost env content_ host_ port =>
    exact (sendHttpPost_exit env content_ host_ port).holdings_trace hr
  | writeToFile out content_ dir_ =>
    rw [NativeCall.trace, TaintdroidHack.writeToFile]
    split <;> simp [holdings, NativeCall.leaves]
  | readFromFile inp path_ =>
    rw [NativeCall.trace, TaintdroidHack.readFromFile]
    split <;> simp [holdings, NativeCall.leaves]

theorem NativeCall.leaves_eq_nil_iff {fs : FileSystem} {c : NativeCall} (hr : c.returns fs) :
    c.leaves = [] ↔ c.Clean := by
  rw [← NativeCall.balanced_iff_clean hr, Balanced, NativeCall.holdings_trace hr, Option.some_inj]

theorem holdings_calls {fs : FileSystem} {calls : List NativeCall} {ts : List (List Event)}
    (h : callTraces fs calls = some ts) (held : List Resource) (n : Nat) :
    holdings held (ts.take n).flatten =
      some (((calls.take n).map NativeCall.leaves).reverse.flatten ++ held) := by
  induction calls generalizing fs ts held n with
  | nil =>
    obtain rfl := Option.some.inj h
    rw [List.take_nil, List.take_nil]
    rfl
  | cons c cs ih =>
    obtain ⟨hr, ts', hts', rfl⟩ := callTraces_cons h
    cases n with
    | zero => rfl
    | succ n =>
      have hfirst : holdings held (c.trace fs) = some (c.leaves ++ held) :=
        holdings_frame held (NativeCall.holdings_trace hr)
      rw [List.take_succ_cons, List.take_succ_cons, List.flatten_cons, holdings_append, hfirst,
        Option.bind_some, ih hts', List.map_cons, List.reverse_cons, List.flatten_append,
        List.flatten_singleton, List.append_assoc]

/-- What calls leave behind piles up, the last on top; nothing gives it back later. -/
theorem calls_accumulate (fs : FileSystem) (calls : List NativeCall) (ts : List (List Event))
    (h : callTraces fs calls = some ts) :
    (∀ n, holdings [] (ts.take n).flatten =
        some ((calls.take n).map NativeCall.leaves).reverse.flatten) ∧
      ∀ c ∈ calls, c.leaves = [] ↔ c.Clean := by
  refine ⟨fun n => ?_, ?_⟩
  · rw [holdings_calls h [] n, List.append_nil]
  · induction calls generalizing fs ts with
    | nil => exact fun _ hmem => absurd hmem List.not_mem_nil
    | cons c cs ih =>
      obtain ⟨hr, ts', hts', rfl⟩ := callTraces_cons h
      exact List.forall_mem_cons.mpr ⟨NativeCall.leaves_eq_nil_iff hr, ih (c.fs fs) ts' hts'⟩

theorem calls_accumulate_mixed :
    ∃ ts, callTraces (fun _ => none) mixedCalls = some ts ∧
      (∀ n, holdings [] (ts.take n).flatten =
        some ((mixedCalls.take n).map NativeCall.leaves).reverse.flatten) ∧
      ∀ c ∈ mixedCalls, c.leaves = [] ↔ c.Clean := by
  obtain ⟨ts, hts⟩ := Option.isSome_iff_exists.mp callTraces_mixed
  exact ⟨ts, hts, calls_accumulate (fun _ => none) mixedCalls ts hts⟩

end TaintdroidHack
