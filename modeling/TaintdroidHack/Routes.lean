import TaintdroidHack.PostTask

/-! Which bytes each of the five routes delivers, and when two routes agree. -/

namespace TaintdroidHack

open Framing Transfer

variable {task : PostTask} {env : TaskEnv} {strings : List JString}

structure StreamsKeep (env : TaskEnv) (data : Bytes) : Prop where
  out_opens : env.out.opens = true
  out_pass : env.out.pass data = data
  inp_opens : env.inp.opens = true
  inp_pass : env.inp.pass data = data

structure NetworkSucceeds (net : NetEnv) (host request : Bytes) (port : Int) : Prop where
  connected : Connected net host port
  writes : Fills net.writes request.length
  reads : Stops (readSizes net) 4095

def StepsSucceed (task : PostTask) (env : TaskEnv) (strings : List JString) : Prop :=
  match task.securityLevel with
  | .REGULAR => env.utf8 = true ∧ env.http.Succeeds task.buildUrl
  | .OBFUSCATED_JAVA => env.utf8 = true ∧ env.http.Succeeds task.buildUrl
  | .OBFUSCATED_NATIVE_NETWORK =>
    ∃ port request, task.port = some port ∧
      message (getStringUTFChars (content strings)) = some request ∧
      NetworkSucceeds env.net (getStringUTFChars task.address) request port
  | .OBFUSCATED_NATIVE_UNTAINT =>
    (untaint env.heap env.self env.iref).returned.isSome ∧
      env.utf8 = true ∧ env.http.Succeeds task.buildUrl
  | .OBFUSCATED_NATIVE_FILESYSTEM =>
    task.filesDir.isSome ∧ StreamsKeep env (getStringUTFChars (content strings)) ∧
      env.utf8 = true ∧ env.http.Succeeds task.buildUrl

def routeBytes : SecurityLevel → JString → Bytes
  | .REGULAR, s => Utf.encodeUtf8 s
  | .OBFUSCATED_JAVA, s => Utf.encodeUtf8 (encodingTrick (some s))
  | .OBFUSCATED_NATIVE_NETWORK, s => getStringUTFChars s
  | .OBFUSCATED_NATIVE_UNTAINT, s => Utf.encodeUtf8 s
  | .OBFUSCATED_NATIVE_FILESYSTEM, s => Utf.encodeUtf8 s

theorem sendBytes_of_succeeds (hu : env.utf8 = true) (hh : env.http.Succeeds task.buildUrl)
    (fs : FileSystem) (str : JString) :
    sendBytes task env fs str = ⟨some .success, some (Utf.encodeUtf8 str), fs⟩ := by
  simp only [sendBytes, getBytes, hu, if_true, javaSendDataTo_of_succeeds hh, Option.map_some,
    postRequest]

theorem networkResult_of_succeeds {net : NetEnv} {s host_ : JString} {port : Int}
    {request : Bytes} (hm : message (getStringUTFChars s) = some request)
    (hn : NetworkSucceeds net (getStringUTFChars host_) request port) (fs : FileSystem) :
    networkResult (sendHttpPost net s host_ port) fs =
      ⟨some .success, some (getStringUTFChars s), fs⟩ := by
  have hexit := sendHttpPost_exit net s host_ port
  have hr := hexit.returned_true_iff.mpr
    ⟨request, hm, hn.connected, fun hf => hf.not_fills hn.writes, hn.reads⟩
  rw [hm] at hexit
  have hwire := hexit.wire_eq_of_not_stalls hr fun hs => hs.2.1.not_fills hn.writes
  rw [networkResult, hr, hwire, readMessage_message (zero_not_mem_getStringUTFChars s) hm]
  rfl

theorem readFromFile_writeToFile {s filesDir : JString} (hk : StreamsKeep env (getStringUTFChars s))
    (fs : FileSystem) :
    (readFromFile env.inp (writeToFile env.out fs s filesDir).fs filesDir).returned = some s := by
  have hfile : (writeToFile env.out fs s filesDir).fs (contactsPath filesDir) =
      some (getStringUTFChars s) := by
    rw [writeToFile_fs hk.out_opens, Function.update_self, hk.out_pass]
  rw [readFromFile_returned hk.inp_opens hfile, hk.inp_pass, newStringUTF_getStringUTFChars]

theorem doInBackground_of_succeed (h : StepsSucceed task env strings) (fs : FileSystem) :
    (doInBackground task env fs strings).result = some .success ∧
      (doInBackground task env fs strings).body =
        some (routeBytes task.securityLevel (content strings)) := by
  cases hl : task.securityLevel with
  | REGULAR =>
    simp only [StepsSucceed, hl] at h
    simp only [doInBackground, hl, sendBytes_of_succeeds h.1 h.2, routeBytes, and_self]
  | OBFUSCATED_JAVA =>
    simp only [StepsSucceed, hl] at h
    simp only [doInBackground, hl, sendBytes_of_succeeds h.1 h.2, routeBytes, and_self]
  | OBFUSCATED_NATIVE_NETWORK =>
    simp only [StepsSucceed, hl] at h
    obtain ⟨port, request, hp, hm, hn⟩ := h
    simp only [doInBackground, hl, hp, networkResult_of_succeeds hm hn, routeBytes, and_self]
  | OBFUSCATED_NATIVE_UNTAINT =>
    simp only [StepsSucceed, hl] at h
    obtain ⟨hu, hutf, hh⟩ := h
    obtain ⟨iref, hr⟩ := Option.isSome_iff_exists.mp hu
    simp only [doInBackground, hl, hr, sendBytes_of_succeeds hutf hh, routeBytes, and_self]
  | OBFUSCATED_NATIVE_FILESYSTEM =>
    simp only [StepsSucceed, hl] at h
    obtain ⟨hd, hk, hutf, hh⟩ := h
    obtain ⟨filesDir, hf⟩ := Option.isSome_iff_exists.mp hd
    simp only [doInBackground, hl, hf, readFromFile_writeToFile hk,
      sendBytes_of_succeeds hutf hh, routeBytes, and_self]

inductive Encoding where
  | utf8
  | table
  | modified
  deriving DecidableEq, Repr

def SecurityLevel.encoding : SecurityLevel → Encoding
  | .REGULAR => .utf8
  | .OBFUSCATED_JAVA => .table
  | .OBFUSCATED_NATIVE_NETWORK => .modified
  | .OBFUSCATED_NATIVE_UNTAINT => .utf8
  | .OBFUSCATED_NATIVE_FILESYSTEM => .utf8

def Encoding.Agrees : Encoding → Encoding → UInt16 → Prop
  | .utf8, .utf8, _ => True
  | .table, .table, _ => True
  | .modified, .modified, _ => True
  | .utf8, .modified, u => u ≠ 0 ∧ ¬ Utf.Surrogate u
  | .modified, .utf8, u => u ≠ 0 ∧ ¬ Utf.Surrogate u
  | .table, .utf8, u => u ∈ symbols
  | .utf8, .table, u => u ∈ symbols
  | .table, .modified, u => u ∈ symbols
  | .modified, .table, u => u ∈ symbols

def Encoding.bytes : Encoding → JString → Bytes
  | .utf8, s => Utf.encodeUtf8 s
  | .table, s => Utf.encodeUtf8 (s.filter (· ∈ symbols))
  | .modified, s => Utf.encodeModified s

theorem routeBytes_eq (level : SecurityLevel) (s : JString) :
    routeBytes level s = level.encoding.bytes s := by
  cases level with
  | OBFUSCATED_JAVA => rw [routeBytes, encodingTrick_eq_filter]; rfl
  | _ => rfl

theorem Encoding.bytes_eq_iff (a b : Encoding) (s : JString) :
    a.bytes s = b.bytes s ↔ ∀ u ∈ s, a.Agrees b u := by
  have hplain : ∀ u, decide (u ∈ symbols) = true → Utf.Plain u := fun u hu =>
    plain_of_mem_symbols (of_decide_eq_true hu)
  have hutf8 : Encoding.table.bytes s = Encoding.utf8.bytes s ↔
      ∀ u ∈ s, u ∈ symbols := by
    have hfilter := Utf.encodeUtf8_filter_eq_iff (fun u hu => (hplain u hu).2) s
    simp only [decide_eq_true_eq] at hfilter
    exact hfilter
  have hmodified : Encoding.table.bytes s = Encoding.modified.bytes s ↔
      ∀ u ∈ s, u ∈ symbols := by
    have hfilter := Utf.encodeUtf8_filter_eq_encodeModified_iff hplain s
    simp only [decide_eq_true_eq] at hfilter
    exact hfilter
  have hboth : Encoding.utf8.bytes s = Encoding.modified.bytes s ↔ ∀ u ∈ s, Utf.Plain u :=
    Utf.encodeUtf8_eq_encodeModified_iff s
  cases a with
  | utf8 =>
    cases b with
    | utf8 => exact iff_of_true rfl fun _ _ => trivial
    | table => exact eq_comm.trans hutf8
    | modified => exact hboth
  | table =>
    cases b with
    | utf8 => exact hutf8
    | table => exact iff_of_true rfl fun _ _ => trivial
    | modified => exact hmodified
  | modified =>
    cases b with
    | utf8 => exact eq_comm.trans hboth
    | table => exact eq_comm.trans hmodified
    | modified => exact iff_of_true rfl fun _ _ => trivial

/-- Two routes that succeed on one text deliver the same bytes exactly where
their encodings agree on each of its code units. -/
theorem routes_agree_iff (strings : List JString) (task₁ task₂ : PostTask) (env₁ env₂ : TaskEnv)
    (fs₁ fs₂ : FileSystem) (h₁ : StepsSucceed task₁ env₁ strings)
    (h₂ : StepsSucceed task₂ env₂ strings) :
    (doInBackground task₁ env₁ fs₁ strings).body.isSome ∧
      (doInBackground task₂ env₂ fs₂ strings).body.isSome ∧
      ((doInBackground task₁ env₁ fs₁ strings).body =
          (doInBackground task₂ env₂ fs₂ strings).body ↔
        ∀ u ∈ content strings,
          task₁.securityLevel.encoding.Agrees task₂.securityLevel.encoding u) := by
  have hbody₁ := (doInBackground_of_succeed h₁ fs₁).2
  have hbody₂ := (doInBackground_of_succeed h₂ fs₂).2
  rw [routeBytes_eq] at hbody₁ hbody₂
  rw [hbody₁, hbody₂, Option.some_inj]
  exact ⟨rfl, rfl, Encoding.bytes_eq_iff _ _ _⟩

def succeedingEnv : TaskEnv where
  http := answeringHttp emptyResponse
  net := answeringServer emptyResponse
  out := .ok
  inp := .ok
  utf8 := true
  heap _ := some 0
  self := ⟨.THREAD_NATIVE, reusedSlot⟩
  iref := 1

theorem succeedingEnv_http_succeeds (url : JString) : succeedingEnv.http.Succeeds url :=
  (answeringHttp_answers emptyResponse url).succeeds_iff.mpr (by decide)

theorem routes_agree_iff_accent :
    (doInBackground (.new [65] 80 .REGULAR) succeedingEnv (fun _ => none) [[0xe9]]).body.isSome ∧
      (doInBackground (.new [65] 80 .OBFUSCATED_JAVA) succeedingEnv (fun _ => none) [[0xe9]]).body.isSome ∧
      ((doInBackground (.new [65] 80 .REGULAR) succeedingEnv (fun _ => none) [[0xe9]]).body =
          (doInBackground (.new [65] 80 .OBFUSCATED_JAVA) succeedingEnv (fun _ => none) [[0xe9]]).body ↔
        ∀ u ∈ content [[0xe9]], Encoding.utf8.Agrees .table u) :=
  routes_agree_iff [[0xe9]] (.new [65] 80 .REGULAR) (.new [65] 80 .OBFUSCATED_JAVA) succeedingEnv succeedingEnv
    (fun _ => none) (fun _ => none) ⟨rfl, succeedingEnv_http_succeeds _⟩ ⟨rfl, succeedingEnv_http_succeeds _⟩

theorem accent_dropped :
    StepsSucceed (.new [65] 80 .REGULAR) succeedingEnv [[0xe9]] ∧
      StepsSucceed (.new [65] 80 .OBFUSCATED_JAVA) succeedingEnv [[0xe9]] ∧
      (doInBackground (.new [65] 80 .REGULAR) succeedingEnv (fun _ => none) [[0xe9]]).body =
        some [0xc3, 0xa9, 10] ∧
      (doInBackground (.new [65] 80 .OBFUSCATED_JAVA) succeedingEnv (fun _ => none) [[0xe9]]).body =
        some [10] := by
  have hr : StepsSucceed (.new [65] 80 .REGULAR) succeedingEnv [[0xe9]] :=
    ⟨rfl, succeedingEnv_http_succeeds _⟩
  have hj : StepsSucceed (.new [65] 80 .OBFUSCATED_JAVA) succeedingEnv [[0xe9]] :=
    ⟨rfl, succeedingEnv_http_succeeds _⟩
  refine ⟨hr, hj, ?_, ?_⟩
  · rw [(doInBackground_of_succeed hr _).2]
    decide
  · rw [(doInBackground_of_succeed hj _).2]
    decide

end TaintdroidHack
