import TaintdroidHack.UntaintFrame

/-! Any number of calls of `untaint`: the tags of exactly the strings that were
passed are cleared, whatever the order of the calls. -/

namespace TaintdroidHack

open Memory

variable {heap : Heap} {self : Thread} {targets : List (IndirectRef × Addr)} {str arr : Addr}

/-- The heap after the calls, unless one of them faults. -/
def untaintAll (heap : Heap) (self : Thread) : List IndirectRef → Option (Heap × Thread)
  | [] => some (heap, self)
  | content_ :: rest =>
    let run := untaint heap self content_
    match run.returned with
    | none => none
    | some _ => untaintAll run.heap run.thread rest

def cleared (heap : Heap) (arrs : List Addr) : Heap := fun x =>
  if ∃ arr ∈ arrs, InRange (taintTag arr) 4 x then some 0 else heap x

theorem byteOf_clear (i : Nat) : byteOf TAINT_CLEAR i = 0 := BitVec.extractLsb'_zero

theorem cleared_nil (heap : Heap) : cleared heap [] = heap := by
  funext x
  simp [cleared]

theorem cleared_cons (heap : Heap) (arr : Addr) (arrs : List Addr) :
    cleared (put32 heap (taintTag arr) TAINT_CLEAR) arrs = cleared heap (arr :: arrs) := by
  funext x
  by_cases hrest : ∃ arr' ∈ arrs, InRange (taintTag arr') 4 x
  · have hall : ∃ arr' ∈ arr :: arrs, InRange (taintTag arr') 4 x := by
      obtain ⟨arr', hmem, hx⟩ := hrest
      exact ⟨arr', List.mem_cons_of_mem arr hmem, hx⟩
    rw [cleared, cleared, if_pos hrest, if_pos hall]
  · by_cases hx : InRange (taintTag arr) 4 x
    · rw [cleared, cleared, if_neg hrest, if_pos ⟨arr, List.mem_cons_self, hx⟩,
        put32_of_inRange heap TAINT_CLEAR hx, byteOf_clear]
    · have hnone : ¬ ∃ arr' ∈ arr :: arrs, InRange (taintTag arr') 4 x := by
        rintro ⟨arr', hmem, hx'⟩
        rcases List.mem_cons.mp hmem with rfl | hmem
        · exact hx hx'
        · exact hrest ⟨arr', hmem, hx'⟩
      rw [cleared, cleared, if_neg hrest, if_neg hnone, put32_of_not_inRange heap TAINT_CLEAR hx]

theorem cleared_congr {arrs arrs' : List Addr} (h : ∀ arr, arr ∈ arrs ↔ arr ∈ arrs') :
    cleared heap arrs = cleared heap arrs' := by
  funext x
  simp only [cleared, h]

/-- Each reference resolves to a string, and no two of the strings overlap
other than by sharing their array. -/
structure Targets (heap : Heap) (table : IndirectRefTable) (targets : List (IndirectRef × Addr)) :
    Prop where
  strings : ∀ t ∈ targets, StringAt heap (table.get t.1) t.2
  beside : ∀ t ∈ targets, ∀ t' ∈ targets, Beside (table.get t.1) t.2 (table.get t'.1) t'.2

theorem Targets.tail {table : IndirectRefTable} {t : IndirectRef × Addr}
    (h : Targets heap table (t :: targets)) :
    Targets (put32 heap (taintTag t.2) TAINT_CLEAR) table targets := by
  refine ⟨fun t' hmem => ?_, fun t' hmem t'' hmem' => ?_⟩
  · have hmem' := List.mem_cons_of_mem t hmem
    exact (h.strings t' hmem').put32 TAINT_CLEAR (h.beside t List.mem_cons_self t' hmem')
  · exact h.beside t' (List.mem_cons_of_mem t hmem) t'' (List.mem_cons_of_mem t hmem')

theorem untaintAll_eq (h : Targets heap self.jniLocalRefTable targets) :
    untaintAll heap self (targets.map Prod.fst) =
      some (cleared heap (targets.map Prod.snd), self) := by
  induction targets generalizing heap with
  | nil =>
    rw [List.map_nil, List.map_nil, cleared_nil]
    rfl
  | cons t targets ih =>
    have hfirst := untaint_of_stringAt (h.strings t List.mem_cons_self)
    rw [List.map_cons, untaintAll, hfirst]
    dsimp only
    rw [ih h.tail, cleared_cons, List.map_cons]

theorem stringTaint_cleared {table : IndirectRefTable} (h : StringAt heap str arr)
    (hb : ∀ t ∈ targets, Beside (table.get t.1) t.2 str arr) :
    stringTaint (cleared heap (targets.map Prod.snd)) str =
      if arr ∈ targets.map Prod.snd then some TAINT_CLEAR else stringTaint heap str := by
  induction targets generalizing heap with
  | nil => rw [List.map_nil, cleared_nil, if_neg List.not_mem_nil]
  | cons t targets ih =>
    have hfirst := hb t List.mem_cons_self
    have hrest := ih (h.put32 TAINT_CLEAR hfirst) fun t' hmem => hb t' (List.mem_cons_of_mem t hmem)
    rw [List.map_cons, ← cleared_cons, hrest, stringTaint_put32 TAINT_CLEAR h hfirst]
    by_cases hmem : arr ∈ targets.map Prod.snd
    · rw [if_pos hmem, if_pos (List.mem_cons_of_mem t.2 hmem)]
    · by_cases heq : arr = t.2
      · rw [if_neg hmem, if_pos heq, if_pos (heq ▸ List.mem_cons_self)]
      · have hnone : arr ∉ t.2 :: targets.map Prod.snd := by simp [heq, hmem]
        rw [if_neg hmem, if_neg heq, if_neg hnone]

/-- Untainting several strings clears their tags and no other byte, in any order
and however often each of them is named. -/
theorem untaintAll_clears (h : Targets heap self.jniLocalRefTable targets) :
    ∃ heap', untaintAll heap self (targets.map Prod.fst) = some (heap', self) ∧
      (∀ x, heap' x =
        if ∃ arr ∈ targets.map Prod.snd, InRange (taintTag arr) 4 x then some 0 else heap x) ∧
      (∀ str arr, StringAt heap str arr →
        (∀ t ∈ targets, Beside (self.jniLocalRefTable.get t.1) t.2 str arr) →
          stringTaint heap' str =
            if arr ∈ targets.map Prod.snd then some TAINT_CLEAR else stringTaint heap str) ∧
      ∀ targets' : List (IndirectRef × Addr), (∀ t, t ∈ targets' ↔ t ∈ targets) →
        untaintAll heap self (targets'.map Prod.fst) = some (heap', self) := by
  refine ⟨cleared heap (targets.map Prod.snd), untaintAll_eq h, fun x => rfl,
    fun str arr hstr hb => stringTaint_cleared hstr hb, fun targets' hsame => ?_⟩
  have h' : Targets heap self.jniLocalRefTable targets' :=
    ⟨fun t hmem => h.strings t ((hsame t).mp hmem),
      fun t hmem t' hmem' => h.beside t ((hsame t).mp hmem) t' ((hsame t').mp hmem')⟩
  have harrs : ∀ arr, arr ∈ targets'.map Prod.snd ↔ arr ∈ targets.map Prod.snd := by
    intro arr
    simp only [List.mem_map, hsame]
  rw [untaintAll_eq h', cleared_congr harrs]

def twoStrings : Heap := put32 (put32 (fun _ => some 1) 0x1008#32 0x2000#32) 0x1108#32 0x2100#32

def twoLocals : Thread :=
  ⟨.THREAD_NATIVE, ⟨2, [⟨0x1000#32, 0⟩, ⟨0x1100#32, 0⟩], .kIndirectKindLocal, Nat.le_refl _⟩⟩

def twoTargets : List (IndirectRef × Addr) := [(1, 0x2000#32), (5, 0x2100#32), (1, 0x2000#32)]

theorem untaintAll_clears_two :
    ∃ heap', untaintAll twoStrings twoLocals (twoTargets.map Prod.fst) = some (heap', twoLocals) ∧
      (∀ x, heap' x =
        if ∃ arr ∈ twoTargets.map Prod.snd, InRange (taintTag arr) 4 x then some 0
        else twoStrings x) ∧
      (∀ str arr, StringAt twoStrings str arr →
        (∀ t ∈ twoTargets, Beside (twoLocals.jniLocalRefTable.get t.1) t.2 str arr) →
          stringTaint heap' str =
            if arr ∈ twoTargets.map Prod.snd then some TAINT_CLEAR else stringTaint twoStrings str) ∧
      ∀ targets' : List (IndirectRef × Addr), (∀ t, t ∈ targets' ↔ t ∈ twoTargets) →
        untaintAll twoStrings twoLocals (targets'.map Prod.fst) = some (heap', twoLocals) := by
  apply untaintAll_clears
  constructor
  · intro t hmem
    simp only [twoTargets, List.mem_cons, List.not_mem_nil, or_false] at hmem
    rcases hmem with rfl | rfl | rfl <;> exact ⟨by decide, by decide, by decide⟩
  · intro t hmem t' hmem'
    simp only [twoTargets, List.mem_cons, List.not_mem_nil, or_false] at hmem hmem'
    rcases hmem with rfl | rfl | rfl <;> rcases hmem' with rfl | rfl | rfl <;>
      exact ⟨by decide, by decide, by decide⟩

end TaintdroidHack
