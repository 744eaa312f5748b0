import Mathlib.Data.List.Basic

/-! Rows of two free fields between labels. The labels are told apart from the
fields by their first letter, which does not occur in them again. -/

namespace Markers

variable {α : Type*} {s : α} {v w : List α}

/-- `v a s w b s` for every row `(a, b)`, with nothing escaped. -/
def render (s : α) (v w : List α) : List (List α × List α) → List α
  | [] => []
  | row :: rows => v ++ (row.1 ++ ((s :: w) ++ (row.2 ++ (s :: render s v w rows))))

def Clear (s : α) (v w : List α) (row : List α × List α) : Prop :=
  ¬ (s :: w) <:+: row.1 ∧ ¬ (s :: v) <:+: row.2

/-- A marker does not overlap itself, so a later one lies after it whole. -/
theorem marker_prefix {c x y : List α} (hs : s ∉ w) (hc : c ≠ [])
    (h : (s :: w) ++ x = c ++ ((s :: w) ++ y)) : (s :: w) <+: c := by
  rcases List.append_eq_append_iff.mp h with ⟨d, hd, -⟩ | ⟨d, hd, hx⟩
  · exact ⟨d, hd.symm⟩
  · cases d with
    | nil =>
      rw [List.append_nil] at hd
      exact hd ▸ List.prefix_rfl
    | cons e d =>
      have he : s = e := (List.cons.inj hx).1
      obtain ⟨t, c, rfl⟩ := List.exists_cons_of_ne_nil hc
      have hw : w = c ++ e :: d := (List.cons.inj hd).2
      exact absurd (by rw [hw, he]; simp) hs

theorem append_marker_inj {a b x y : List α} (hs : s ∉ w) (ha : ¬ (s :: w) <:+: a)
    (hb : ¬ (s :: w) <:+: b) (h : a ++ ((s :: w) ++ x) = b ++ ((s :: w) ++ y)) :
    a = b ∧ x = y := by
  rcases List.append_eq_append_iff.mp h with ⟨c, hc, hx⟩ | ⟨c, hc, hx⟩
  · by_cases hnil : c = []
    · subst hnil
      rw [List.append_nil] at hc
      rw [List.nil_append] at hx
      exact ⟨hc.symm, List.append_cancel_left hx⟩
    · have hp := marker_prefix hs hnil hx
      exact absurd (hc ▸ hp.isInfix.trans (List.suffix_append a c).isInfix) hb
  · by_cases hnil : c = []
    · subst hnil
      rw [List.append_nil] at hc
      rw [List.nil_append] at hx
      exact ⟨hc, (List.append_cancel_left hx).symm⟩
    · have hp := marker_prefix hs hnil hx
      exact absurd (hc ▸ hp.isInfix.trans (List.suffix_append b c).isInfix) ha

/-- A text that goes on after its last `s` with a marker has one before it. -/
theorem marker_infix_of_end {a b y : List α} (hs : s ∉ w) (hw : w ≠ [])
    (h : a ++ [s] = b ++ ((s :: w) ++ y)) : (s :: w) <:+: a := by
  rcases List.eq_nil_or_concat y with rfl | ⟨y, t, rfl⟩
  · obtain ⟨w, t, rfl⟩ := (List.eq_nil_or_concat w).resolve_left hw
    have hlast : a ++ [s] = (b ++ s :: w) ++ [t] := by simpa using h
    have ht : s = t := by simpa using (List.append_inj' hlast rfl).2
    exact absurd (by simp [ht]) hs
  · have hlast : a ++ [s] = (b ++ ((s :: w) ++ y)) ++ [t] := by simpa using h
    have ha := (List.append_inj' hlast rfl).1
    exact ⟨b, y, by rw [ha, List.append_assoc]⟩

theorem render_injective {rows rows' : List (List α × List α)} (hv : s ∉ v) (hne : v ≠ [])
    (hw : s ∉ w) (h : ∀ row ∈ rows, Clear s v w row) (h' : ∀ row ∈ rows', Clear s v w row)
    (he : render s v w rows = render s v w rows') : rows = rows' := by
  induction rows generalizing rows' with
  | nil =>
    cases rows' with
    | nil => rfl
    | cons row' rows' =>
      have hlen := congrArg List.length he
      simp [render] at hlen
  | cons row rows ih =>
    cases rows' with
    | nil =>
      have hlen := congrArg List.length he
      simp [render] at hlen
    | cons row' rows' =>
      have hrow := h row List.mem_cons_self
      have hrow' := h' row' List.mem_cons_self
      rw [render, render] at he
      obtain ⟨hfirst, hrest⟩ := append_marker_inj hw hrow.1 hrow'.1 (List.append_cancel_left he)
      have htail : row.2 = row'.2 ∧ render s v w rows = render s v w rows' := by
        cases rows with
        | nil =>
          cases rows' with
          | nil => exact ⟨List.append_cancel_right hrest, rfl⟩
          | cons next' rows' => exact absurd (marker_infix_of_end hv hne hrest) hrow.2
        | cons next rows =>
          cases rows' with
          | nil => exact absurd (marker_infix_of_end hv hne hrest.symm) hrow'.2
          | cons next' rows' =>
            obtain ⟨hsecond, hnext⟩ := append_marker_inj hv hrow.2 hrow'.2 hrest
            exact ⟨hsecond, congrArg (v ++ ·) hnext⟩
      have hrows := ih (fun r hr => h r (List.mem_cons_of_mem _ hr))
        (fun r hr => h' r (List.mem_cons_of_mem _ hr)) htail.2
      rw [Prod.ext hfirst htail.1, hrows]

end Markers
