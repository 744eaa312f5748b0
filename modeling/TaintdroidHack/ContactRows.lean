import TaintdroidHack.Contacts
import TaintdroidHack.Markers

/-! Reading the text of `getContactsAsString` back: its fields are not escaped,
so it determines the rows only where no field holds a label. -/

namespace TaintdroidHack

open Markers

abbrev Row := Option JString × Option JString

def shownRow (row : Row) : JString × JString := (shown row.1, shown row.2)

def HoldsNoLabel (row : Row) : Prop :=
  ¬ jstring "\nPhone Number: " <:+: shown row.1 ∧ ¬ jstring "\nName: " <:+: shown row.2

instance : DecidablePred HoldsNoLabel := fun _ => inferInstanceAs (Decidable (_ ∧ _))

theorem serialize_eq_render (rows : List Row) :
    serialize rows =
      render 10 (jstring "Name: ") (jstring "Phone Number: ") (rows.map shownRow) := by
  have hnewline : jstring "\n" = [10] := by decide
  induction rows with
  | nil => rfl
  | cons row rows ih =>
    have hstep : serialize (row :: rows) = entry row.1 row.2 ++ serialize rows := by
      rw [entry_eq]
      rfl
    rw [hstep, ih, List.map_cons, render, entry, hnewline]
    simp only [shownRow, List.append_assoc, List.cons_append, List.nil_append]

theorem HoldsNoLabel.clear {row : Row} (h : HoldsNoLabel row) :
    Clear 10 (jstring "Name: ") (jstring "Phone Number: ") (shownRow row) := by
  have hphone : jstring "\nPhone Number: " = 10 :: jstring "Phone Number: " := by decide
  have hname : jstring "\nName: " = 10 :: jstring "Name: " := by decide
  rw [HoldsNoLabel, hphone, hname] at h
  exact h

theorem serialize_eq_iff {rows rows' : List Row} (h : ∀ row ∈ rows, HoldsNoLabel row)
    (h' : ∀ row ∈ rows', HoldsNoLabel row) :
    serialize rows = serialize rows' ↔ rows.map shownRow = rows'.map shownRow := by
  have hclear : ∀ {rows : List Row}, (∀ row ∈ rows, HoldsNoLabel row) →
      ∀ row ∈ rows.map shownRow, Clear 10 (jstring "Name: ") (jstring "Phone Number: ") row := by
    intro rows hall row hrow
    obtain ⟨r, hr, rfl⟩ := List.mem_map.mp hrow
    exact (hall r hr).clear
  rw [serialize_eq_render, serialize_eq_render]
  constructor
  · exact render_injective (by decide) (by decide) (by decide) (hclear h) (hclear h')
  · intro he
    rw [he]

def listing (rows : List Row) : ProviderState where
  contacts := some (rows.map fun row => ⟨none, row.1, 1⟩)
  phones i _ := rows[i]?.map fun row => [row.2]

theorem listing_rows (rows : List Row) : (listing rows).rows = rows := by
  have hcontact : ∀ p ∈ rows.zipIdx,
      (listing rows).contactRows p.2 ⟨none, p.1.1, 1⟩ = [p.1] := by
    intro p hp
    have hget : rows[p.2]? = some p.1 := List.mem_zipIdx_iff_getElem?.mp hp
    have hphones : (listing rows).phones p.2 none = some [p.1.2] := by
      rw [listing]
      dsimp only
      rw [hget, Option.map_some]
    rw [ProviderState.contactRows, if_pos Int.one_pos]
    dsimp only
    rw [hphones]
    rfl
  have hrows : (listing rows).rows = rows.zipIdx.flatMap fun p =>
      (listing rows).contactRows p.2 ⟨none, p.1.1, 1⟩ := by
    rw [ProviderState.rows]
    show ((rows.map fun row => _).zipIdx).flatMap _ = _
    rw [List.zipIdx_map, List.flatMap_map]
    rfl
  rw [hrows, List.flatMap_congr hcontact, ← List.map_eq_flatMap, List.zipIdx_map_fst]

variable {χ : Type}

/-- Where no field holds a label, the text tells the printed rows apart. -/
theorem same_text_iff (state state' : ProviderState) (h : ∀ row ∈ state.rows, HoldsNoLabel row)
    (h' : ∀ row ∈ state'.rows, HoldsNoLabel row) :
    (getContactsAsString (χ := χ) state.resolver).result =
        (getContactsAsString (χ := χ) state'.resolver).result ↔
      state.rows.map shownRow = state'.rows.map shownRow := by
  rw [getContactsAsString_result, getContactsAsString_result, Except.ok.injEq,
    serialize_eq_iff h h']

def brokenRows : List Row := [(none, some (jstring "1")), (some (jstring "A\nB"), none),
  (some (jstring "C"), some (jstring "2\n"))]

def nullRows : List Row := [(some (jstring "null"), some (jstring "1")),
  (some (jstring "A\nB"), some (jstring "null")), (some (jstring "C"), some (jstring "2\n"))]

theorem same_text_iff_broken :
    (getContactsAsString (χ := Unit) (listing brokenRows).resolver).result =
        (getContactsAsString (χ := Unit) (listing nullRows).resolver).result ↔
      (listing brokenRows).rows.map shownRow = (listing nullRows).rows.map shownRow := by
  apply same_text_iff
  · rw [listing_rows]
    decide
  · rw [listing_rows]
    decide

def twoRows : List Row := [(some (jstring "A"), some (jstring "1")),
  (some (jstring "B"), some (jstring "2"))]

def forgedRow : List Row := [(some (jstring "A"), some (jstring "1\nName: B\nPhone Number: 2"))]

theorem forged_row_same_text :
    (getContactsAsString (χ := Unit) (listing twoRows).resolver).result =
        (getContactsAsString (χ := Unit) (listing forgedRow).resolver).result ∧
      (listing twoRows).rows ≠ (listing forgedRow).rows ∧
      (getContactsAsString (χ := Unit) (listing [(none, none)]).resolver).result =
        (getContactsAsString (χ := Unit)
          (listing [(some (jstring "null"), none)]).resolver).result ∧
      (listing [(none, none)]).rows ≠ (listing [(some (jstring "null"), none)]).rows := by
  simp only [getContactsAsString_result, listing_rows]
  refine ⟨?_, by decide, ?_, by decide⟩
  · have he : serialize twoRows = serialize forgedRow := by decide
    rw [he]
  · rfl

end TaintdroidHack
