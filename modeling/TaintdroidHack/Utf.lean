import Mathlib.Data.List.Basic
import Mathlib.Data.UInt
import Mathlib.Tactic.Ring

/-! UTF-8 with replacement and modified UTF-8, both over strings of UTF-16
code units. The two agree unit by unit except on surrogates and on zero. -/

namespace Utf

def High (u : UInt16) : Prop := 0xD800 ≤ u.toNat ∧ u.toNat < 0xDC00

def Low (u : UInt16) : Prop := 0xDC00 ≤ u.toNat ∧ u.toNat < 0xE000

def Surrogate (u : UInt16) : Prop := 0xD800 ≤ u.toNat ∧ u.toNat < 0xE000

instance : DecidablePred High := fun _ => inferInstanceAs (Decidable (_ ∧ _))

instance : DecidablePred Low := fun _ => inferInstanceAs (Decidable (_ ∧ _))

instance : DecidablePred Surrogate := fun _ => inferInstanceAs (Decidable (_ ∧ _))

def Plain (u : UInt16) : Prop := u ≠ 0 ∧ ¬ Surrogate u

instance : DecidablePred Plain := fun _ => inferInstanceAs (Decidable (_ ∧ _))

def scalarBytes (n : Nat) : List UInt8 :=
  if n < 0x80 then [UInt8.ofNat n]
  else if n < 0x800 then [UInt8.ofNat (0xC0 + n / 64), UInt8.ofNat (0x80 + n % 64)]
  else if n < 0x10000 then
    [UInt8.ofNat (0xE0 + n / 4096), UInt8.ofNat (0x80 + n / 64 % 64), UInt8.ofNat (0x80 + n % 64)]
  else
    [UInt8.ofNat (0xF0 + n / 262144), UInt8.ofNat (0x80 + n / 4096 % 64),
      UInt8.ofNat (0x80 + n / 64 % 64), UInt8.ofNat (0x80 + n % 64)]

/-- A unit that is not half of a pair; `?` stands for an unpaired surrogate. -/
def single (u : UInt16) : List UInt8 :=
  if Surrogate u then [63] else scalarBytes u.toNat

def pairScalar (u v : UInt16) : Nat :=
  0x10000 + (u.toNat - 0xD800) * 1024 + (v.toNat - 0xDC00)

def encodeUtf8 : List UInt16 → List UInt8
  | [] => []
  | [u] => single u
  | u :: v :: rest =>
    if High u ∧ Low v then scalarBytes (pairScalar u v) ++ encodeUtf8 rest
    else single u ++ encodeUtf8 (v :: rest)

def modifiedUnit (u : UInt16) : List UInt8 :=
  if u = 0 then [0xC0, 0x80] else scalarBytes u.toNat

def encodeModified (s : List UInt16) : List UInt8 :=
  s.flatMap modifiedUnit

def Tail (b : UInt8) : Prop := 0x80 ≤ b.toNat ∧ b.toNat < 0xC0

instance : DecidablePred Tail := fun _ => inferInstanceAs (Decidable (_ ∧ _))

/-- `none` is input that is not modified UTF-8. -/
def decodeModified : List UInt8 → Option (List UInt16)
  | [] => some []
  | a :: rest =>
    if a.toNat < 0x80 then (decodeModified rest).map (UInt16.ofNat a.toNat :: ·)
    else if a.toNat < 0xC0 then none
    else if a.toNat < 0xE0 then
      match rest with
      | b :: rest =>
        if Tail b then
          (decodeModified rest).map (UInt16.ofNat ((a.toNat - 0xC0) * 64 + (b.toNat - 0x80)) :: ·)
        else none
      | [] => none
    else if a.toNat < 0xF0 then
      match rest with
      | b :: c :: rest =>
        if Tail b ∧ Tail c then
          (decodeModified rest).map
            (UInt16.ofNat ((a.toNat - 0xE0) * 4096 + (b.toNat - 0x80) * 64 + (c.toNat - 0x80)) :: ·)
        else none
      | _ => none
    else none

theorem scalarBytes_ne_nil (n : Nat) : scalarBytes n ≠ [] := by
  unfold scalarBytes
  split_ifs <;> simp

theorem length_scalarBytes_of_ge {n : Nat} (h : 0x800 ≤ n) (h' : n < 0x10000) :
    (scalarBytes n).length = 3 := by
  have h1 : ¬ n < 0x80 := by omega
  have h2 : ¬ n < 0x800 := by omega
  simp [scalarBytes, h1, h2, h']

theorem length_scalarBytes_pairScalar (u v : UInt16) :
    (scalarBytes (pairScalar u v)).length = 4 := by
  have h1 : ¬ pairScalar u v < 0x80 := by unfold pairScalar; omega
  have h2 : ¬ pairScalar u v < 0x800 := by unfold pairScalar; omega
  have h3 : ¬ pairScalar u v < 0x10000 := by unfold pairScalar; omega
  simp [scalarBytes, h1, h2, h3]

theorem single_of_not_surrogate {u : UInt16} (h : ¬ Surrogate u) :
    single u = scalarBytes u.toNat := if_neg h

theorem length_single_pos (u : UInt16) : 0 < (single u).length := by
  unfold single
  split_ifs
  · simp
  · exact List.length_pos_iff.mpr (scalarBytes_ne_nil _)

theorem length_modifiedUnit_surrogate {u : UInt16} (h : Surrogate u) :
    (modifiedUnit u).length = 3 := by
  have h0 : u ≠ 0 := by
    rintro rfl
    exact absurd h (by decide)
  rw [modifiedUnit, if_neg h0]
  exact length_scalarBytes_of_ge (by have := h.1; omega) u.toNat_lt

theorem modifiedUnit_of_plain {u : UInt16} (h : Plain u) : modifiedUnit u = single u := by
  rw [modifiedUnit, if_neg h.1, single_of_not_surrogate h.2]

theorem length_single_le (u : UInt16) : (single u).length ≤ (modifiedUnit u).length := by
  by_cases hs : Surrogate u
  · rw [length_modifiedUnit_surrogate hs]
    simp [single, hs]
  · by_cases h0 : u = 0
    · subst h0; decide
    · rw [modifiedUnit_of_plain ⟨h0, hs⟩]

theorem length_single_lt {u : UInt16} (h : ¬ Plain u) :
    (single u).length < (modifiedUnit u).length := by
  by_cases hs : Surrogate u
  · rw [length_modifiedUnit_surrogate hs]
    simp [single, hs]
  · have h0 : u = 0 := by
      by_contra hne
      exact h ⟨hne, hs⟩
    subst h0; decide

theorem High.surrogate {u : UInt16} (h : High u) : Surrogate u := ⟨h.1, by have := h.2; omega⟩

theorem Low.surrogate {u : UInt16} (h : Low u) : Surrogate u := ⟨by have := h.1; omega, h.2⟩

theorem encodeUtf8_cons {u : UInt16} (h : ¬ Surrogate u) (s : List UInt16) :
    encodeUtf8 (u :: s) = scalarBytes u.toNat ++ encodeUtf8 s := by
  cases s with
  | nil => simp [encodeUtf8, single_of_not_surrogate h]
  | cons v rest =>
    have hu : ¬ (High u ∧ Low v) := fun hh => h hh.1.surrogate
    rw [encodeUtf8, if_neg hu, single_of_not_surrogate h]

@[simp] theorem encodeModified_cons (u : UInt16) (s : List UInt16) :
    encodeModified (u :: s) = modifiedUnit u ++ encodeModified s := List.flatMap_cons

theorem encodeUtf8_of_plain {s : List UInt16} (h : ∀ u ∈ s, Plain u) :
    encodeUtf8 s = encodeModified s := by
  induction s with
  | nil => rfl
  | cons u s ih =>
    have hu := h u (by simp)
    rw [encodeUtf8_cons hu.2, encodeModified_cons, modifiedUnit_of_plain hu,
      single_of_not_surrogate hu.2, ih fun v hv => h v (by simp [hv])]

theorem length_encodeUtf8 (s : List UInt16) :
    (encodeUtf8 s).length ≤ (encodeModified s).length ∧
      ((∃ u ∈ s, ¬ Plain u) → (encodeUtf8 s).length < (encodeModified s).length) := by
  induction s using encodeUtf8.induct with
  | case1 => simp [encodeUtf8]
  | case2 u =>
    have hle := length_single_le u
    refine ⟨by simpa [encodeUtf8, encodeModified] using hle, ?_⟩
    rintro ⟨w, hw, hp⟩
    obtain rfl := List.mem_singleton.mp hw
    simpa [encodeUtf8, encodeModified] using length_single_lt hp
  | case3 u v rest huv ih =>
    have hu := length_modifiedUnit_surrogate huv.1.surrogate
    have hv := length_modifiedUnit_surrogate huv.2.surrogate
    have hlt : (encodeUtf8 (u :: v :: rest)).length < (encodeModified (u :: v :: rest)).length := by
      rw [encodeUtf8, if_pos huv]
      simp only [encodeModified_cons, List.length_append, hu, hv, length_scalarBytes_pairScalar]
      have := ih.1
      omega
    exact ⟨hlt.le, fun _ => hlt⟩
  | case4 u v rest huv ih =>
    have hle := length_single_le u
    rw [encodeUtf8, if_neg huv, encodeModified_cons, List.length_append, List.length_append]
    refine ⟨by have := ih.1; omega, ?_⟩
    rintro ⟨w, hw, hp⟩
    rcases List.mem_cons.mp hw with rfl | hw
    · have := ih.1
      have := length_single_lt hp
      omega
    · have := ih.2 ⟨w, hw, hp⟩
      omega

theorem encodeUtf8_eq_encodeModified_iff (s : List UInt16) :
    encodeUtf8 s = encodeModified s ↔ ∀ u ∈ s, Plain u := by
  refine ⟨fun he => ?_, encodeUtf8_of_plain⟩
  by_contra hh
  push Not at hh
  have hlt := (length_encodeUtf8 s).2 hh
  rw [he] at hlt
  omega

/-- Dropping units never lengthens the encoding, and dropping any shortens it,
as long as no surrogate is kept to form new pairs. -/
theorem length_encodeUtf8_filter {p : UInt16 → Bool} (hp : ∀ u, p u = true → ¬ Surrogate u)
    (s : List UInt16) :
    (encodeUtf8 (s.filter p)).length ≤ (encodeUtf8 s).length ∧
      ((∃ u ∈ s, p u = false) → (encodeUtf8 (s.filter p)).length < (encodeUtf8 s).length) := by
  have hdrop : ∀ u, Surrogate u → p u = false := fun u hu =>
    Bool.eq_false_iff.mpr fun h => hp u h hu
  induction s using encodeUtf8.induct with
  | case1 => simp [encodeUtf8]
  | case2 u =>
    have hpos := length_single_pos u
    cases hu : p u <;> simp [encodeUtf8, hu, hpos]
  | case3 u v rest huv ih =>
    have hlt : (encodeUtf8 ((u :: v :: rest).filter p)).length <
        (encodeUtf8 (u :: v :: rest)).length := by
      rw [List.filter_cons_of_neg (by simp [hdrop u huv.1.surrogate]),
        List.filter_cons_of_neg (by simp [hdrop v huv.2.surrogate]), encodeUtf8, if_pos huv,
        List.length_append, length_scalarBytes_pairScalar]
      have := ih.1
      omega
    exact ⟨hlt.le, fun _ => hlt⟩
  | case4 u v rest huv ih =>
    have hpos := length_single_pos u
    rw [encodeUtf8, if_neg huv, List.length_append]
    cases hu : p u with
    | false =>
      rw [List.filter_cons_of_neg (by simp [hu])]
      have := ih.1
      exact ⟨by omega, fun _ => by omega⟩
    | true =>
      rw [List.filter_cons_of_pos hu, encodeUtf8_cons (hp u hu), List.length_append,
        single_of_not_surrogate (hp u hu)]
      refine ⟨by have := ih.1; omega, ?_⟩
      rintro ⟨w, hw, hpw⟩
      rcases List.mem_cons.mp hw with rfl | hw
      · simp [hu] at hpw
      · have := ih.2 ⟨w, hw, hpw⟩
        omega

theorem encodeUtf8_filter_eq_iff {p : UInt16 → Bool} (hp : ∀ u, p u = true → ¬ Surrogate u)
    (s : List UInt16) : encodeUtf8 (s.filter p) = encodeUtf8 s ↔ ∀ u ∈ s, p u = true := by
  refine ⟨fun he => ?_, fun h => by rw [List.filter_eq_self.mpr h]⟩
  by_contra hh
  push Not at hh
  obtain ⟨u, hu, hpu⟩ := hh
  have hlt := (length_encodeUtf8_filter hp s).2 ⟨u, hu, by simpa using hpu⟩
  rw [he] at hlt
  omega

theorem encodeUtf8_filter_eq_encodeModified_iff {p : UInt16 → Bool}
    (hp : ∀ u, p u = true → Plain u) (s : List UInt16) :
    encodeUtf8 (s.filter p) = encodeModified s ↔ ∀ u ∈ s, p u = true := by
  have hp' : ∀ u, p u = true → ¬ Surrogate u := fun u h => (hp u h).2
  refine ⟨fun he => ?_, fun h => ?_⟩
  · apply (encodeUtf8_filter_eq_iff hp' s).mp
    have h1 := (length_encodeUtf8_filter hp' s).1
    have h2 := (length_encodeUtf8 s).1
    have hplain : ∀ u ∈ s, Plain u := by
      by_contra hh
      push Not at hh
      have h3 := (length_encodeUtf8 s).2 hh
      rw [he] at h1
      omega
    rw [he, encodeUtf8_of_plain hplain]
  · rw [List.filter_eq_self.mpr h]
    exact encodeUtf8_of_plain fun u hu => hp u (h u hu)

theorem toNat_ofNat_of_lt {n : Nat} (h : n < 256) : (UInt8.ofNat n).toNat = n := by
  rw [UInt8.toNat_ofNat']
  omega

theorem tail_ofNat (n : Nat) : Tail (UInt8.ofNat (0x80 + n % 64)) := by
  rw [Tail, toNat_ofNat_of_lt (by omega)]
  omega

theorem decodeModified_one (n : Nat) (hn : n < 0x80) (rest : List UInt8) :
    decodeModified (UInt8.ofNat n :: rest) = (decodeModified rest).map (UInt16.ofNat n :: ·) := by
  have ha : (UInt8.ofNat n).toNat = n := toNat_ofNat_of_lt (by omega)
  rw [decodeModified.eq_def]
  simp only [ha, hn, if_true]

theorem decodeModified_two (n : Nat) (hn : n < 0x800) (rest : List UInt8) :
    decodeModified (UInt8.ofNat (0xC0 + n / 64) :: UInt8.ofNat (0x80 + n % 64) :: rest) =
      (decodeModified rest).map (UInt16.ofNat n :: ·) := by
  have ha : (UInt8.ofNat (0xC0 + n / 64)).toNat = 0xC0 + n / 64 := toNat_ofNat_of_lt (by omega)
  have hb : (UInt8.ofNat (0x80 + n % 64)).toNat = 0x80 + n % 64 := toNat_ofNat_of_lt (by omega)
  have hval : (0xC0 + n / 64 - 0xC0) * 64 + (0x80 + n % 64 - 0x80) = n := by omega
  rw [decodeModified, if_neg (by omega), if_neg (by omega), if_pos (by omega)]
  simp only [tail_ofNat, if_true, ha, hb, hval]

theorem decodeModified_three (n : Nat) (hn : n < 0x10000) (rest : List UInt8) :
    decodeModified (UInt8.ofNat (0xE0 + n / 4096) :: UInt8.ofNat (0x80 + n / 64 % 64) ::
      UInt8.ofNat (0x80 + n % 64) :: rest) = (decodeModified rest).map (UInt16.ofNat n :: ·) := by
  have ha : (UInt8.ofNat (0xE0 + n / 4096)).toNat = 0xE0 + n / 4096 := toNat_ofNat_of_lt (by omega)
  have hb : (UInt8.ofNat (0x80 + n / 64 % 64)).toNat = 0x80 + n / 64 % 64 :=
    toNat_ofNat_of_lt (by omega)
  have hc : (UInt8.ofNat (0x80 + n % 64)).toNat = 0x80 + n % 64 := toNat_ofNat_of_lt (by omega)
  have hval : (0xE0 + n / 4096 - 0xE0) * 4096 + (0x80 + n / 64 % 64 - 0x80) * 64 +
      (0x80 + n % 64 - 0x80) = n := by omega
  rw [decodeModified, if_neg (by omega), if_neg (by omega), if_neg (by omega), if_pos (by omega)]
  simp only [tail_ofNat, and_self, if_true, ha, hb, hc, hval]

theorem decodeModified_modifiedUnit (u : UInt16) (rest : List UInt8) :
    decodeModified (modifiedUnit u ++ rest) = (decodeModified rest).map (u :: ·) := by
  have hlt := u.toNat_lt
  by_cases h0 : u = 0
  · subst h0
    exact decodeModified_two 0 (by omega) rest
  · rw [modifiedUnit, if_neg h0, scalarBytes]
    split_ifs with h1 h2
    · simp only [List.singleton_append, decodeModified_one _ h1, UInt16.ofNat_toNat]
    · simp only [List.cons_append, List.nil_append, decodeModified_two _ h2, UInt16.ofNat_toNat]
    · simp only [List.cons_append, List.nil_append, decodeModified_three _ hlt, UInt16.ofNat_toNat]

theorem decodeModified_encodeModified (s : List UInt16) :
    decodeModified (encodeModified s) = some s := by
  induction s with
  | nil => rfl
  | cons u s ih => rw [encodeModified_cons, decodeModified_modifiedUnit, ih, Option.map_some]

theorem encodeModified_injective : Function.Injective encodeModified := by
  intro s t h
  have hs := decodeModified_encodeModified s
  rw [h, decodeModified_encodeModified] at hs
  exact (Option.some.inj hs).symm

theorem ofNat_ne_zero {n : Nat} (h : 0 < n) (h' : n < 256) : UInt8.ofNat n ≠ 0 := by
  intro he
  have hh := congrArg UInt8.toNat he
  rw [toNat_ofNat_of_lt h', UInt8.toNat_zero] at hh
  omega

theorem zero_not_mem_modifiedUnit (u : UInt16) : (0 : UInt8) ∉ modifiedUnit u := by
  have hlt := u.toNat_lt
  by_cases h0 : u = 0
  · subst h0; decide
  · have hpos : 0 < u.toNat := Nat.pos_of_ne_zero fun h => h0 (UInt16.toNat_inj.mp h)
    rw [modifiedUnit, if_neg h0, scalarBytes]
    split_ifs with h1 h2
    · simpa using (ofNat_ne_zero hpos (by omega)).symm
    · simp only [List.mem_cons, List.not_mem_nil, or_false, not_or]
      exact ⟨(ofNat_ne_zero (by omega) (by omega)).symm, (ofNat_ne_zero (by omega) (by omega)).symm⟩
    · simp only [List.mem_cons, List.not_mem_nil, or_false, not_or]
      exact ⟨(ofNat_ne_zero (by omega) (by omega)).symm, (ofNat_ne_zero (by omega) (by omega)).symm,
        (ofNat_ne_zero (by omega) (by omega)).symm⟩

theorem zero_not_mem_encodeModified (s : List UInt16) : (0 : UInt8) ∉ encodeModified s := by
  intro h
  obtain ⟨u, _, hu⟩ := List.mem_flatMap.mp h
  exact zero_not_mem_modifiedUnit u hu

end Utf
