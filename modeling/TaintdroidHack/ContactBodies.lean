import TaintdroidHack.MainActivity

/-! From a click to the body: which contacts a body shows, whatever button was
clicked. -/

namespace TaintdroidHack

open Framing

variable {χ : Type} {state state' : ProviderState} {level level' : SecurityLevel}

/-- The printed fields can be told apart, and the route alters none of their letters. -/
def ProviderState.Legible (state : ProviderState) (level : SecurityLevel) : Prop :=
  ∀ row ∈ state.rows, HoldsNoLabel row ∧
    ∀ u ∈ shown row.1 ++ shown row.2, level.encoding.Agrees .modified u

theorem agrees_of_mem_symbols (encoding : Encoding) {u : UInt16} (hu : u ∈ symbols) :
    encoding.Agrees .modified u := by
  cases encoding with
  | utf8 => exact plain_of_mem_symbols hu
  | table => exact hu
  | modified => trivial

theorem agrees_of_inSymbols (encoding : Encoding) {s : JString} (h : InSymbols s) :
    ∀ u ∈ s, encoding.Agrees .modified u := fun u hu => agrees_of_mem_symbols encoding (h u hu)

theorem content_singleton (str : JString) : content [str] = str ++ LINE_SEP := rfl

theorem content_singleton_inj {str str' : JString} : content [str] = content [str'] ↔ str = str' := by
  rw [content_singleton, content_singleton]
  exact List.append_left_inj LINE_SEP

theorem ProviderState.Legible.agrees (h : state.Legible level) :
    ∀ u ∈ content [serialize state.rows], level.encoding.Agrees .modified u := by
  obtain ⟨-, -, -, hname, hphone, hnewline⟩ := inSymbols_alphabet
  rw [content_singleton, List.forall_mem_append]
  refine ⟨fun u hu => ?_, agrees_of_inSymbols _ hnewline⟩
  obtain ⟨row, hrow, hu⟩ := List.mem_flatMap.mp hu
  obtain ⟨hfirst, hsecond⟩ := List.forall_mem_append.mp (h row hrow).2
  have hentry : ∀ u ∈ entry row.1 row.2, level.encoding.Agrees .modified u := by
    simp only [entry, List.forall_mem_append]
    exact ⟨⟨⟨⟨⟨agrees_of_inSymbols _ hname, hfirst⟩, agrees_of_inSymbols _ hnewline⟩,
      agrees_of_inSymbols _ hphone⟩, hsecond⟩, agrees_of_inSymbols _ hnewline⟩
  exact hentry u (entry_eq row.1 row.2 ▸ hu)

theorem ProviderState.Legible.routeBytes_eq (h : state.Legible level) :
    routeBytes level (content [serialize state.rows]) =
      Utf.encodeModified (content [serialize state.rows]) := by
  rw [TaintdroidHack.routeBytes_eq]
  exact (Encoding.bytes_eq_iff level.encoding .modified _).mpr h.agrees

theorem clicked_body {filesDir : JString} {task : PostTask} {strings : List JString} {env : TaskEnv}
    (hclick : onClick (χ := χ) filesDir level state.resolver = some (.post task strings))
    (hl : state.Legible level) (h : StepsSucceed task env strings) (fs : FileSystem) :
    (doInBackground task env fs strings).body =
      some (Utf.encodeModified (content [serialize state.rows])) := by
  rw [onClick_resolver] at hclick
  obtain ⟨rfl, rfl⟩ := Task.post.inj (Option.some.inj hclick)
  rw [(doInBackground_of_succeed h fs).2, newPostTask_securityLevel, hl.routeBytes_eq]

/-- Whatever the two buttons, the bodies of legible contacts are equal exactly
where the clicks have read the same printed rows. -/
theorem bodies_show_rows {filesDir : JString} {task task' : PostTask}
    {strings strings' : List JString} {env env' : TaskEnv}
    (hclick : onClick (χ := χ) filesDir level state.resolver = some (.post task strings))
    (hclick' : onClick (χ := χ) filesDir level' state'.resolver = some (.post task' strings'))
    (hl : state.Legible level) (hl' : state'.Legible level') (h : StepsSucceed task env strings)
    (h' : StepsSucceed task' env' strings') (fs fs' : FileSystem) :
    (doInBackground task env fs strings).body = (doInBackground task' env' fs' strings').body ↔
      state.rows.map shownRow = state'.rows.map shownRow := by
  rw [clicked_body hclick hl h, clicked_body hclick' hl' h', Option.some_inj,
    Utf.encodeModified_injective.eq_iff, content_singleton_inj]
  exact serialize_eq_iff (fun row hrow => (hl row hrow).1) fun row hrow => (hl' row hrow).1

theorem legible_listing {rows : List Row} (h : ∀ row ∈ rows, HoldsNoLabel row)
    (hs : ∀ row ∈ rows, InSymbols (shown row.1 ++ shown row.2)) (level : SecurityLevel) :
    (listing rows).Legible level := by
  rw [ProviderState.Legible, listing_rows]
  exact fun row hrow => ⟨h row hrow, agrees_of_inSymbols _ (hs row hrow)⟩

theorem holdsNoLabel_of_short {row : Row} (h : (shown row.1).length < 7)
    (h' : (shown row.2).length < 7) : HoldsNoLabel row := by
  have hphone : (jstring "\nPhone Number: ").length = 15 := by decide
  have hname : (jstring "\nName: ").length = 7 := by decide
  constructor
  · intro hlabel
    have hle := hlabel.length_le
    omega
  · intro hlabel
    have hle := hlabel.length_le
    omega

def firstRows : List Row := [(some [49, 10, 50], some [51]), (some [52], some [49])]

def secondRows : List Row := [(some [49, 10, 50], some [51]), (some [52], some [50]),
  (some [51], some [49])]

theorem legible_digits {rows : List Row} (hdigits : ∀ row ∈ rows,
      shown row.1 ++ shown row.2 ⊆ ([49, 50, 51, 52, 10] : JString))
    (hshort : ∀ row ∈ rows, (shown row.1).length < 7 ∧ (shown row.2).length < 7)
    (level : SecurityLevel) : (listing rows).Legible level := by
  have hone : Digit 49 := by decide
  have htwo : Digit 50 := by decide
  have hthree : Digit 51 := by decide
  have hfour : Digit 52 := by decide
  have hline : jstring "\n" = [10] := by decide
  have hnewline : InSymbols [10] := hline ▸ inSymbols_alphabet.2.2.2.2.2
  have hsymbols : InSymbols [49, 50, 51, 52, 10] := by
    simp only [InSymbols, List.forall_mem_cons]
    exact ⟨digit_mem_symbols hone, digit_mem_symbols htwo, digit_mem_symbols hthree,
      digit_mem_symbols hfour, List.forall_mem_cons.mp hnewline⟩
  exact legible_listing (fun row hrow => holdsNoLabel_of_short (hshort row hrow).1 (hshort row hrow).2)
    (fun row hrow u hu => hsymbols u (hdigits row hrow hu)) level

theorem bodies_show_rows_several :
    (doInBackground (newPostTask [47] .REGULAR) succeedingEnv (fun _ => none)
          [serialize (listing firstRows).rows]).body =
        (doInBackground (newPostTask [47] .OBFUSCATED_JAVA) succeedingEnv (fun _ => none)
          [serialize (listing secondRows).rows]).body ↔
      (listing firstRows).rows.map shownRow = (listing secondRows).rows.map shownRow := by
  have hfirst : (listing firstRows).Legible .REGULAR :=
    legible_digits (by simp [firstRows, shown]) (by simp [firstRows, shown]) _
  have hsecond : (listing secondRows).Legible .OBFUSCATED_JAVA :=
    legible_digits (by simp [secondRows, shown]) (by simp [secondRows, shown]) _
  have hregular : StepsSucceed (newPostTask [47] .REGULAR) succeedingEnv
      [serialize (listing firstRows).rows] := ⟨rfl, succeedingEnv_http_succeeds _⟩
  have hjava : StepsSucceed (newPostTask [47] .OBFUSCATED_JAVA) succeedingEnv
      [serialize (listing secondRows).rows] := ⟨rfl, succeedingEnv_http_succeeds _⟩
  exact bodies_show_rows (χ := Unit) (onClick_resolver _ _ _) (onClick_resolver _ _ _) hfirst
    hsecond hregular hjava _ _

end TaintdroidHack
