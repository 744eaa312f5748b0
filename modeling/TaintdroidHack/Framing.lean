import Mathlib.Data.Nat.Digits.Lemmas
import TaintdroidHack.Utf

/-! Messages framed as HTTP/1.0: a head of lines, an empty line, and a body
whose length the head announces in decimal. -/

namespace Framing

def ascii (s : String) : List UInt8 :=
  s.toList.map fun c => UInt8.ofNat c.toNat

theorem ascii_append (s t : String) : ascii (s ++ t) = ascii s ++ ascii t := by
  rw [ascii, String.toList_append, List.map_append, ascii, ascii]

def crlf : List UInt8 := [13, 10]

def headEnd : List UInt8 := [13, 10, 13, 10]

def digit (d : Nat) : UInt8 := UInt8.ofNat (48 + d)

def decimal (n : Nat) : List UInt8 :=
  if n = 0 then [48] else ((Nat.digits 10 n).map digit).reverse

def Digit (b : UInt8) : Prop := 48 ≤ b.toNat ∧ b.toNat < 58

instance : DecidablePred Digit := fun _ => inferInstanceAs (Decidable (_ ∧ _))

def readDecimal (bs : List UInt8) : Option Nat :=
  if bs ≠ [] ∧ bs.all (fun b => decide (Digit b)) = true then
    some (bs.foldl (fun n b => n * 10 + (b.toNat - 48)) 0)
  else none

theorem toNat_digit {d : Nat} (h : d < 10) : (digit d).toNat = 48 + d :=
  Utf.toNat_ofNat_of_lt (by omega)

theorem digit_of_mem_decimal {n : Nat} {b : UInt8} (h : b ∈ decimal n) : Digit b := by
  unfold decimal at h
  split_ifs at h
  · rw [List.mem_singleton.mp h]; decide
  · obtain ⟨d, hd, rfl⟩ := List.mem_map.mp (List.mem_reverse.mp h)
    have hlt := Nat.digits_lt_base (by omega) hd
    rw [Digit, toNat_digit hlt]
    omega

theorem decimal_ne_nil (n : Nat) : decimal n ≠ [] := by
  unfold decimal
  split_ifs with h
  · simp
  · simpa [Nat.digits_ne_nil_iff_ne_zero] using h

theorem length_decimal_le_iff {n k : Nat} (hk : 0 < k) : (decimal n).length ≤ k ↔ n < 10 ^ k := by
  by_cases h0 : n = 0
  · subst h0
    exact iff_of_true hk (by simp)
  · rw [decimal, if_neg h0, List.length_reverse, List.length_map]
    exact Nat.digits_length_le_iff (by omega) n

theorem foldl_digits (ds : List Nat) (h : ∀ d ∈ ds, d < 10) :
    (ds.map digit).reverse.foldl (fun n b => n * 10 + (b.toNat - 48)) 0 = Nat.ofDigits 10 ds := by
  induction ds with
  | nil => rfl
  | cons d ds ih =>
    have hd := toNat_digit (h d (by simp))
    rw [List.map_cons, List.reverse_cons, List.foldl_append, ih fun e he => h e (by simp [he]),
      Nat.ofDigits_cons, List.foldl_cons, List.foldl_nil, hd]
    omega

theorem readDecimal_decimal (n : Nat) : readDecimal (decimal n) = some n := by
  have hdigits : (decimal n).all (fun b => decide (Digit b)) = true :=
    List.all_eq_true.mpr fun b hb => decide_eq_true (digit_of_mem_decimal hb)
  rw [readDecimal, if_pos ⟨decimal_ne_nil n, hdigits⟩]
  by_cases h0 : n = 0
  · subst h0; rfl
  · rw [decimal, if_neg h0, foldl_digits _ fun d => Nat.digits_lt_base (by omega),
      Nat.ofDigits_digits]

def cutAt (sep : List UInt8) : List UInt8 → Option (List UInt8 × List UInt8)
  | [] => none
  | b :: bs =>
    if sep.isPrefixOf (b :: bs) then some ([], (b :: bs).drop sep.length)
    else (cutAt sep bs).map fun p => (b :: p.1, p.2)

def joinLines : List (List UInt8) → List UInt8
  | [] => []
  | [l] => l
  | l :: l' :: ls => l ++ crlf ++ joinLines (l' :: ls)

def splitLines : List UInt8 → List (List UInt8)
  | 13 :: 10 :: bs => [] :: splitLines bs
  | b :: bs => ((splitLines bs).headD [] |> (b :: ·)) :: (splitLines bs).tail
  | [] => [[]]

def headerValue (name : List UInt8) (lines : List (List UInt8)) : Option (List UInt8) :=
  lines.findSome? fun l => if name.isPrefixOf l then some (l.drop name.length) else none

/-- Reads a message whose length stands in the header `name`: the head up to
the first empty line, as many bytes of body as announced, and what is left. -/
def readMessage (name text : List UInt8) : Option (List UInt8 × List UInt8) := do
  let (head, rest) ← cutAt headEnd text
  let value ← headerValue name (splitLines head)
  let n ← readDecimal value
  if n ≤ rest.length then some (rest.take n, rest.drop n) else none

theorem cutAt_self (sep rest : List UInt8) (h : sep ≠ []) :
    cutAt sep (sep ++ rest) = some ([], rest) := by
  cases sep with
  | nil => exact absurd rfl h
  | cons s sep =>
    have hp : (s :: sep).isPrefixOf (s :: (sep ++ rest)) = true := by simp
    rw [List.cons_append, cutAt, if_pos hp, ← List.cons_append, List.drop_left]

theorem cutAt_append_of_not_mem {s : UInt8} {sep l : List UInt8} (h : s ∉ l) (rest : List UInt8) :
    cutAt (s :: sep) (l ++ rest) = (cutAt (s :: sep) rest).map fun p => (l ++ p.1, p.2) := by
  induction l with
  | nil => simp
  | cons b l ih =>
    have hb : ¬ (s :: sep).isPrefixOf (b :: (l ++ rest)) = true := by
      intro hp
      rw [List.isPrefixOf_iff_prefix, List.cons_prefix_cons] at hp
      exact h (by simp [hp.1])
    rw [List.cons_append, cutAt, if_neg hb, ih fun hm => h (by simp [hm]), Option.map_map]
    rfl

theorem cutAt_headEnd_crlf {b : UInt8} (hb : b ≠ 13) (rest : List UInt8) :
    cutAt headEnd (crlf ++ b :: rest) =
      (cutAt headEnd (b :: rest)).map fun p => (crlf ++ p.1, p.2) := by
  have h1 : ¬ headEnd.isPrefixOf (13 :: 10 :: b :: rest) = true := by
    simp [headEnd, Ne.symm hb]
  have h2 : ¬ headEnd.isPrefixOf (10 :: b :: rest) = true := by simp [headEnd]
  rw [crlf, List.cons_append, List.singleton_append, cutAt, if_neg h1, cutAt, if_neg h2,
    Option.map_map]
  rfl

def IsLine (l : List UInt8) : Prop := l ≠ [] ∧ 13 ∉ l

instance : DecidablePred IsLine := fun _ => inferInstanceAs (Decidable (_ ∧ _))

theorem joinLines_head {l : List UInt8} (hl : IsLine l) (ls : List (List UInt8)) :
    ∃ b bs, b ≠ 13 ∧ joinLines (l :: ls) = b :: bs := by
  obtain ⟨b, l, rfl⟩ := List.exists_cons_of_ne_nil hl.1
  have hb : b ≠ 13 := fun h => hl.2 (by simp [h])
  cases ls with
  | nil => exact ⟨b, l, hb, rfl⟩
  | cons l' ls => exact ⟨b, l ++ crlf ++ joinLines (l' :: ls), hb, by simp [joinLines]⟩

/-- The first empty line is the one that ends the head, whatever the body holds. -/
theorem cutAt_joinLines {ls : List (List UInt8)} (h : ∀ l ∈ ls, IsLine l) (hne : ls ≠ [])
    (body : List UInt8) :
    cutAt headEnd (joinLines ls ++ headEnd ++ body) = some (joinLines ls, body) := by
  induction ls with
  | nil => exact absurd rfl hne
  | cons l ls ih =>
    have hl := h l (by simp)
    cases ls with
    | nil =>
      rw [joinLines, List.append_assoc, headEnd, cutAt_append_of_not_mem hl.2,
        cutAt_self _ _ (by simp), Option.map_some, List.append_nil]
    | cons l' ls =>
      obtain ⟨b, bs, hb, he⟩ := joinLines_head (h l' (by simp)) ls
      have hh := ih (fun x hx => h x (List.mem_cons_of_mem _ hx)) (by simp)
      rw [joinLines]
      rw [he] at hh ⊢
      rw [List.append_assoc, List.append_assoc, List.append_assoc, headEnd,
        cutAt_append_of_not_mem hl.2, ← headEnd, List.cons_append, cutAt_headEnd_crlf hb]
      rw [List.cons_append, List.cons_append, List.append_assoc] at hh
      rw [hh]
      simp

theorem splitLines_cons {b : UInt8} (h : b ≠ 13) (bs : List UInt8) :
    splitLines (b :: bs) = (b :: (splitLines bs).headD []) :: (splitLines bs).tail := by
  rw [splitLines]
  rintro - rfl
  exact absurd rfl h

theorem splitLines_append {l : List UInt8} (h : 13 ∉ l) (rest : List UInt8) :
    splitLines (l ++ rest) = (l ++ (splitLines rest).headD []) :: (splitLines rest).tail := by
  induction l with
  | nil => cases rest using splitLines.fun_cases <;> simp [splitLines]
  | cons b l ih =>
    have hb : b ≠ 13 := fun he => h (by simp [he])
    rw [List.cons_append, splitLines_cons hb, ih fun hm => h (by simp [hm])]
    rfl

theorem splitLines_joinLines {ls : List (List UInt8)} (h : ∀ l ∈ ls, IsLine l) (hne : ls ≠ []) :
    splitLines (joinLines ls) = ls := by
  induction ls with
  | nil => exact absurd rfl hne
  | cons l ls ih =>
    have hl := h l (by simp)
    cases ls with
    | nil => simpa [joinLines, splitLines] using splitLines_append hl.2 []
    | cons l' ls =>
      have hh := ih (fun x hx => h x (List.mem_cons_of_mem _ hx)) (by simp)
      rw [joinLines, List.append_assoc, splitLines_append hl.2, crlf, List.cons_append,
        List.singleton_append, splitLines, hh]
      simp

theorem readMessage_joinLines {ls : List (List UInt8)} {name body : List UInt8}
    (h : ∀ l ∈ ls, IsLine l) (hne : ls ≠ [])
    (hv : headerValue name ls = some (decimal body.length)) (rest : List UInt8) :
    readMessage name (joinLines ls ++ headEnd ++ (body ++ rest)) = some (body, rest) := by
  rw [readMessage, cutAt_joinLines h hne]
  simp [splitLines_joinLines h hne, hv, readDecimal_decimal]

end Framing
