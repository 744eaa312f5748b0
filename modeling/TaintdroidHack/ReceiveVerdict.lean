import TaintdroidHack.PostVerdict

/-! The verdict of `send_http_post` on the response: a response that fills the
buffer up to its terminating zero is stored in full and still refused. -/

namespace TaintdroidHack

open Framing Transfer

variable {env : NetEnv} {bytes : Bytes}

/-- The bytes come in nonempty reads of any size, and then the end of file. -/
def Arrives (env : NetEnv) (bytes : Bytes) : Prop :=
  ∃ chunks : List Bytes, (∀ c ∈ chunks, c ≠ []) ∧ chunks.flatten = bytes ∧
    ∀ i, env.reads i = some (chunks.getD i [])

theorem arrived_eq_flatten_take {chunks : List Bytes}
    (hreads : ∀ i, env.reads i = some (chunks.getD i [])) (k : Nat) :
    arrived env k = (chunks.take k).flatten := by
  induction k with
  | zero => rfl
  | succ k ih =>
    rw [arrived_succ, ih, hreads, Option.getD_some, List.take_add_one, List.flatten_append,
      List.getD]
    cases chunks[k]? <;> simp

theorem Arrives.stops_iff (h : Arrives env bytes) (total : Nat) :
    Stops (readSizes env) total ↔ bytes.length < total := by
  obtain ⟨chunks, hne, hbytes, hreads⟩ := h
  have hpos : ∀ n ∈ chunks.map List.length, 0 < n := by
    intro n hn
    obtain ⟨c, hc, rfl⟩ := List.mem_map.mp hn
    exact List.length_pos_of_ne_nil (hne c hc)
  have hsizes : ∀ i, readSizes env i = some ((chunks.map List.length).getD i 0) := by
    intro i
    rw [readSizes, hreads, Option.map_some]
    exact congrArg some (List.getD_map chunks [] List.length).symm
  rw [stops_iff_sum_lt hpos hsizes, ← hbytes, List.length_flatten]

theorem Arrives.arrived_eq (h : Arrives env bytes) {k : Nat} (hk : readSizes env k = some 0) :
    arrived env k = bytes := by
  obtain ⟨chunks, hne, hbytes, hreads⟩ := h
  have hend : chunks.length ≤ k := by
    by_contra hlt
    have hget : chunks.getD k [] ∈ chunks := by
      rw [List.getD_eq_getElem _ _ (by omega)]
      exact List.getElem_mem _
    have hlen := List.length_pos_of_ne_nil (hne _ hget)
    rw [readSizes, hreads, Option.map_some] at hk
    have := Option.some.inj hk
    omega
  rw [arrived_eq_flatten_take hreads, List.take_of_length_le hend, hbytes]

theorem Received.response_eq {response : Bytes} (h : Received env response)
    (ha : Arrives env bytes) : response = bytes ++ List.replicate (4096 - bytes.length) 0 := by
  obtain ⟨k, -, -, hk, hresponse⟩ := h
  rw [hresponse, ← length_arrived, ha.arrived_eq hk]

variable {host m : Bytes} {port : Int} {run : PostRun}

theorem PostExit.returned_true_iff_arrives (h : PostExit env host port (some m) run)
    (hc : Connected env host port) (hw : ¬ Fails env.writes m.length) (ha : Arrives env bytes) :
    run.returned = some true ↔ bytes.length ≤ 4094 := by
  rw [h.returned_true_iff, ← Nat.lt_succ_iff, ← ha.stops_iff]
  constructor
  · intro hall
    obtain ⟨_, _, _, _, hstops⟩ := hall
    exact hstops
  · intro hstops
    exact ⟨m, rfl, hc, hw, hstops⟩

theorem PostExit.response_eq {formatted : Option Bytes} (h : PostExit env host port formatted run)
    (hr : run.returned = some true) (ha : Arrives env bytes) :
    run.state.response = bytes ++ List.replicate (4096 - bytes.length) 0 := by
  cases h with
  | success _ _ _ hrecv _ => exact hrecv.response_eq ha
  | _ => simp at hr

/-- A response is judged by whether it fits the array, but for the one length at
which a full array passes for an overfull one. -/
theorem receive_verdict_iff (env : NetEnv) (content_ host_ : JString) (port : Int) {m bytes : Bytes}
    (hm : message (getStringUTFChars content_) = some m)
    (hc : Connected env (getStringUTFChars host_) port) (hw : Fills env.writes m.length)
    (ha : Arrives env bytes) :
    (((sendHttpPost env content_ host_ port).returned = some true ↔ bytes.length ≤ 4095) ∧
        ((sendHttpPost env content_ host_ port).returned = some true →
          (sendHttpPost env content_ host_ port).state.response =
            bytes ++ List.replicate (4096 - bytes.length) 0)) ↔
      bytes.length ≠ 4095 := by
  have hexit := sendHttpPost_exit env content_ host_ port
  rw [hm] at hexit
  have hverdict := hexit.returned_true_iff_arrives hc (fun hf => hf.not_fills hw) ha
  constructor
  · intro h
    have hiff := hverdict.symm.trans h.1
    omega
  · intro hne
    refine ⟨?_, fun hr => hexit.response_eq hr ha⟩
    rw [hverdict]
    omega

-- It takes any request in one write.
def chunkingServer (chunks : List Bytes) : NetEnv :=
  { deafServer with
    writes := fun _ => some (2 ^ 31)
    reads := fun i => some (chunks.getD i []) }

theorem chunkingServer_connected (chunks : List Bytes) (host : Bytes) (port : Int) :
    Connected (chunkingServer chunks) host port :=
  ⟨Int.natCast_nonneg 3, ⟨0x0100007f⟩, rfl, Int.le_refl 0⟩

theorem chunkingServer_fills (chunks : List Bytes) {total : Nat} (h : total < 2 ^ 31) :
    Fills (chunkingServer chunks).writes total := by
  have hwrite : (chunkingServer chunks).writes 0 = some (2 ^ 31) := rfl
  refine ⟨1, (progress_zero _).succ (by omega) hwrite, ?_⟩
  rw [amount_succ, hwrite, Option.getD_some, amount_zero]
  omega

theorem chunkingServer_arrives {chunks : List Bytes} (h : ∀ c ∈ chunks, c ≠ []) :
    Arrives (chunkingServer chunks) chunks.flatten := ⟨chunks, h, rfl, fun _ => rfl⟩

theorem receive_verdict_iff_greeting :
    (((sendHttpPost (chunkingServer [[72], [105]]) [65] [65] 80).returned = some true ↔
          ([72, 105] : Bytes).length ≤ 4095) ∧
        ((sendHttpPost (chunkingServer [[72], [105]]) [65] [65] 80).returned = some true →
          (sendHttpPost (chunkingServer [[72], [105]]) [65] [65] 80).state.response =
            [72, 105] ++ List.replicate (4096 - ([72, 105] : Bytes).length) 0)) ↔
      ([72, 105] : Bytes).length ≠ 4095 := by
  obtain ⟨m, hm⟩ := Option.isSome_iff_exists.mp message_letter_isSome
  have hlen := (message_eq_some (zero_not_mem_getStringUTFChars [65]) hm).2
  exact receive_verdict_iff (chunkingServer [[72], [105]]) [65] [65] 80 hm
    (chunkingServer_connected _ _ 80) (chunkingServer_fills _ hlen)
    (chunkingServer_arrives (by decide))

theorem full_buffer_refused :
    Arrives (chunkingServer [List.replicate 4095 72]) (List.replicate 4095 72) ∧
      (List.replicate 4095 (72 : UInt8)).length ≤ 4095 ∧
      (∃ m, message (getStringUTFChars [65]) = some m ∧
        Fills (chunkingServer [List.replicate 4095 72]).writes m.length) ∧
      (sendHttpPost (chunkingServer [List.replicate 4095 72]) [65] [65] 80).returned ≠
        some true := by
  obtain ⟨m, hm⟩ := Option.isSome_iff_exists.mp message_letter_isSome
  have hlen := (message_eq_some (zero_not_mem_getStringUTFChars [65]) hm).2
  have hfills := chunkingServer_fills [List.replicate 4095 72] hlen
  have hchunk : ∀ c ∈ [List.replicate 4095 (72 : UInt8)], c ≠ [] := by
    intro c hc
    rw [List.mem_singleton.mp hc]
    exact List.ne_nil_of_length_pos (by rw [List.length_replicate]; omega)
  have harrives := chunkingServer_arrives hchunk
  rw [List.flatten_singleton] at harrives
  have hexit := sendHttpPost_exit (chunkingServer [List.replicate 4095 72]) [65] [65] 80
  rw [hm] at hexit
  have hverdict := hexit.returned_true_iff_arrives (chunkingServer_connected _ _ 80)
    (fun hf => hf.not_fills hfills) harrives
  rw [List.length_replicate] at hverdict ⊢
  refine ⟨harrives, le_rfl, ⟨m, hm, hfills⟩, fun hr => ?_⟩
  have := hverdict.mp hr
  omega

end TaintdroidHack
