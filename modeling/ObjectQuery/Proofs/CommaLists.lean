import Mathlib.Data.List.DropRight
import ObjectQuery.Text.Blank

/-!
# Comma-separated lists

Reading a comma-separated list forgets the blanks around its entries and the commas that have
nothing between them, and it forgets nothing else.  A text lists the entries that are read from
it, in their order, and whatever lists some entries is read as these entries.  So the entries
joined with single commas are a normal form of the text.

## Main Definitions

* `IsEntry` — texts that stand as entries of a list
* `IsFiller` — the texts that reading forgets
* `Lists` — a text lists entries, with fillers around them

## Main Statements

* `entriesOf_append_comma` — a comma divides what is read
* `lists_entriesOf` — what is read is listed
* `Lists.entriesOf_eq` — what is listed is read
* `commaItems_canonical` — both of a text, and its normal form
-/

namespace ObjectQuery.Text

/-- No blank stands at an end of a text. -/
structure Trimmed (cs : List Char) : Prop where
  first : ∀ c ∈ cs.head?, isBlank c = false
  last : ∀ c ∈ cs.getLast?, isBlank c = false

/-- A text that stands as an entry of a comma-separated list. -/
structure IsEntry (entry : String) : Prop where
  ne_empty : entry ≠ ""
  no_comma : ',' ∉ entry.toList
  trimmed : Trimmed entry.toList

/-- Blanks and commas. -/
def IsFiller (cs : List Char) : Prop := ∀ c ∈ cs, isBlank c = true ∨ c = ','

/-- A text lists entries: they stand in it in their order, with a comma between neighbours and
with any blanks and further commas around them. -/
inductive Lists : List String → List Char → Prop
  | none {filler : List Char} (h : IsFiller filler) : Lists [] filler
  | one {entry : String} {front back : List Char} (hfront : IsFiller front)
      (hback : IsFiller back) : Lists [entry] (front ++ entry.toList ++ back)
  | more {entry : String} {entries : List String} {front back rest : List Char}
      (hfront : IsFiller front) (hback : IsFiller back) (h : Lists entries rest) :
      Lists (entry :: entries) (front ++ entry.toList ++ back ++ ',' :: rest)

/-! ### Blanks at the ends -/

section Trim

variable {c : Char} {cs : List Char}

theorem ne_comma_of_isBlank (h : isBlank c = true) : c ≠ ',' := by
  rintro rfl
  exact absurd h (by decide)

theorem trim_blank_cons (h : isBlank c = true) (cs : List Char) : trim (c :: cs) = trim cs := by
  rw [trim, trimStart, List.dropWhile_cons_of_pos h]
  rfl

theorem trim_concat_blank (h : isBlank c = true) (cs : List Char) :
    trim (cs ++ [c]) = trim cs := by
  rw [trim, trim, trimStart, trimStart, List.dropWhile_append]
  split
  · next hblank =>
    rw [List.isEmpty_iff.mp hblank, List.dropWhile_cons_of_pos h]
    rfl
  · exact List.rdropWhile_concat_pos isBlank _ c h

/-- A text is what trimming leaves of it, between blanks. -/
theorem exists_eq_append_trim (cs : List Char) :
    ∃ front back, cs = front ++ trim cs ++ back ∧ (∀ c ∈ front, isBlank c = true) ∧
      ∀ c ∈ back, isBlank c = true := by
  refine ⟨cs.takeWhile isBlank, (trimStart cs).rtakeWhile isBlank, ?_,
    fun c hc => List.mem_takeWhile_imp hc, fun c hc => List.mem_rtakeWhile_imp hc⟩
  calc cs = cs.takeWhile isBlank ++ trimStart cs := List.takeWhile_append_dropWhile.symm
    _ = cs.takeWhile isBlank ++ (trim cs ++ (trimStart cs).rtakeWhile isBlank) := by
      rw [show trim cs = (trimStart cs).rdropWhile isBlank from rfl,
        List.rdropWhile_append_rtakeWhile]
    _ = _ := (List.append_assoc _ _ _).symm

theorem trimmed_trim (cs : List Char) : Trimmed (trim cs) := by
  have hstart : ∀ c ∈ (trimStart cs).head?, isBlank c = false := by
    intro c hc
    have hhead := List.head?_dropWhile_not isBlank cs
    rwa [show (cs.dropWhile isBlank).head? = some c from hc] at hhead
  refine ⟨fun c hc => ?_, fun c hc => ?_⟩
  · obtain ⟨back, hback⟩ := List.rdropWhile_prefix isBlank (trimStart cs)
    refine hstart c ?_
    rw [← hback]
    exact List.mem_head?_append_of_mem_head? hc
  · have hne : trim cs ≠ [] := List.ne_nil_of_mem (List.mem_of_getLast? hc)
    obtain rfl : (trim cs).getLast hne = c := by
      rwa [List.getLast?_eq_some_getLast hne, Option.mem_some] at hc
    exact Bool.eq_false_iff.mpr (List.rdropWhile_last_not isBlank (trimStart cs) hne)

/-- A text without blanks at its ends is left as it is. -/
theorem Trimmed.trim_eq (h : Trimmed cs) : trim cs = cs := by
  have hstart : trimStart cs = cs := by
    refine List.dropWhile_eq_self_iff.mpr fun hpos => ?_
    rw [h.first _ (List.head?_eq_getElem? ▸ List.getElem?_eq_getElem hpos)]
    exact Bool.false_ne_true
  have hend : trimEnd cs = cs := by
    refine List.rdropWhile_eq_self_iff.mpr fun hne => ?_
    rw [h.last _ (List.getLast?_eq_some_getLast hne)]
    exact Bool.false_ne_true
  rw [trim, hstart, hend]

end Trim

/-! ### What is read between commas -/

/-- The entry that a piece between commas holds: none if the piece is blank. -/
def entryOf? (piece : List Char) : Option String :=
  if (trim piece).isEmpty then none else some (String.ofList (trim piece))

/-- The entries of a text that is given by its characters. -/
def entriesOf (cs : List Char) : List String := (splitOn ',' cs).filterMap entryOf?

section Split

variable {c : Char} {cs : List Char}

theorem commaItems_eq_entriesOf (text : String) : commaItems text = entriesOf text.toList :=
  List.filterMap_map

theorem splitOn_ne_nil (separator : Char) (cs : List Char) : splitOn separator cs ≠ [] := by
  cases cs with
  | nil => exact List.cons_ne_nil _ _
  | cons c cs =>
    rw [splitOn]
    split
    · exact List.cons_ne_nil _ _
    · split <;> exact List.cons_ne_nil _ _

/-- Splitting is that of the library for lists. -/
theorem splitOn_eq_list_splitOn (separator : Char) (cs : List Char) :
    splitOn separator cs = cs.splitOn separator := by
  induction cs with
  | nil => rfl
  | cons c cs ih =>
    rw [List.splitOn_eq_splitOnP, List.splitOnP_cons_eq_if_modifyHead,
      ← List.splitOn_eq_splitOnP, ← ih, splitOn]
    by_cases hc : c = separator
    · rw [if_pos hc, if_pos (beq_iff_eq.mpr hc)]
    · rw [if_neg hc, if_neg (mt beq_iff_eq.mp hc)]
      cases hpieces : splitOn separator cs with
      | nil => exact absurd hpieces (splitOn_ne_nil separator cs)
      | cons piece pieces => rfl

theorem entriesOf_of_no_comma (h : ',' ∉ cs) : entriesOf cs = (entryOf? cs).toList := by
  rw [entriesOf, splitOn_eq_list_splitOn, List.splitOn_eq_singleton h]
  cases hentry : entryOf? cs <;> simp [hentry]

/-- A comma divides what is read. -/
theorem entriesOf_append_comma (cs ds : List Char) :
    entriesOf (cs ++ ',' :: ds) = entriesOf cs ++ entriesOf ds := by
  have hsplit : (cs ++ ',' :: ds).splitOn ',' = cs.splitOn ',' ++ ds.splitOn ',' :=
    List.splitOnP_append_cons cs ds (beq_self_eq_true ',')
  rw [entriesOf, splitOn_eq_list_splitOn, hsplit, List.filterMap_append,
    ← splitOn_eq_list_splitOn, ← splitOn_eq_list_splitOn]
  rfl

/-- A blank in front of a text is not read. -/
theorem entriesOf_blank_cons (h : isBlank c = true) (cs : List Char) :
    entriesOf (c :: cs) = entriesOf cs := by
  have hentry : ∀ piece, entryOf? (c :: piece) = entryOf? piece := fun piece => by
    rw [entryOf?, trim_blank_cons h, entryOf?]
  rw [entriesOf, entriesOf, splitOn, if_neg (ne_comma_of_isBlank h)]
  cases hpieces : splitOn ',' cs with
  | nil => exact absurd hpieces (splitOn_ne_nil ',' cs)
  | cons piece pieces => rw [List.filterMap_cons, List.filterMap_cons, hentry]

/-- Fillers in front of a text are not read. -/
theorem entriesOf_filler_append {filler : List Char} (h : IsFiller filler) (cs : List Char) :
    entriesOf (filler ++ cs) = entriesOf cs := by
  induction filler with
  | nil => rfl
  | cons c filler ih =>
    obtain ⟨hc, hfiller⟩ := List.forall_mem_cons.mp h
    rw [List.cons_append, ← ih hfiller]
    rcases hc with hblank | rfl
    · exact entriesOf_blank_cons hblank _
    · exact entriesOf_append_comma [] _

theorem entriesOf_filler {filler : List Char} (h : IsFiller filler) : entriesOf filler = [] := by
  rw [← List.append_nil filler, entriesOf_filler_append h]
  rfl

/-- Fillers behind a piece are not read: by induction on the filler, whose blanks are taken to
the piece. -/
theorem entriesOf_append_filler (hcomma : ',' ∉ cs) {filler : List Char} (h : IsFiller filler) :
    entriesOf (cs ++ filler) = entriesOf cs := by
  induction filler generalizing cs with
  | nil => rw [List.append_nil]
  | cons c filler ih =>
    obtain ⟨hc, hfiller⟩ := List.forall_mem_cons.mp h
    rcases hc with hblank | rfl
    · have hcomma' : ',' ∉ cs ++ [c] := by
        rw [List.mem_append, List.mem_singleton]
        exact not_or.mpr ⟨hcomma, (ne_comma_of_isBlank hblank).symm⟩
      rw [List.append_cons, ih hcomma' hfiller, entriesOf_of_no_comma hcomma',
        entriesOf_of_no_comma hcomma, entryOf?, trim_concat_blank hblank, entryOf?]
    · rw [entriesOf_append_comma, entriesOf_filler hfiller, List.append_nil]

end Split

/-! ### Reading and listing -/

section Lists

variable {entry : String} {entries : List String} {cs : List Char}

theorem isFiller_of_blank (h : ∀ c ∈ cs, isBlank c = true) : IsFiller cs :=
  fun c hc => .inl (h c hc)

theorem IsEntry.entriesOf_eq (h : IsEntry entry) : entriesOf entry.toList = [entry] := by
  have hne : ¬entry.toList.isEmpty = true := fun hempty =>
    h.ne_empty (String.toList_eq_nil_iff.mp (List.isEmpty_iff.mp hempty))
  rw [entriesOf_of_no_comma h.no_comma, entryOf?, h.trimmed.trim_eq, if_neg hne,
    String.ofList_toList]
  rfl

theorem IsEntry.entriesOf_between (h : IsEntry entry) {front back : List Char}
    (hfront : IsFiller front) (hback : IsFiller back) :
    entriesOf (front ++ entry.toList ++ back) = [entry] := by
  rw [List.append_assoc, entriesOf_filler_append hfront,
    entriesOf_append_filler h.no_comma hback, h.entriesOf_eq]

/-- Whatever lists entries is read as these entries. -/
theorem Lists.entriesOf_eq (h : Lists entries cs) (hentries : ∀ entry ∈ entries, IsEntry entry) :
    entriesOf cs = entries := by
  induction h with
  | none h => exact entriesOf_filler h
  | one hfront hback =>
    exact (hentries _ (List.mem_singleton_self _)).entriesOf_between hfront hback
  | more hfront hback _ ih =>
    obtain ⟨hentry, hrest⟩ := List.forall_mem_cons.mp hentries
    rw [entriesOf_append_comma, hentry.entriesOf_between hfront hback, ih hrest]
    rfl

/-- A text without commas is blank, or it lists one entry. -/
theorem piece_cases {piece : List Char} (hcomma : ',' ∉ piece) :
    (IsFiller piece ∧ entriesOf piece = []) ∨
      ∃ entry front back, IsEntry entry ∧ IsFiller front ∧ IsFiller back ∧
        piece = front ++ entry.toList ++ back ∧ entriesOf piece = [entry] := by
  obtain ⟨front, back, hpiece, hfront, hback⟩ := exists_eq_append_trim piece
  by_cases hempty : trim piece = []
  · have hfiller : IsFiller piece := by
      rw [hpiece, hempty, List.append_nil]
      exact isFiller_of_blank (List.forall_mem_append.mpr ⟨hfront, hback⟩)
    exact .inl ⟨hfiller, entriesOf_filler hfiller⟩
  · have hentry : IsEntry (String.ofList (trim piece)) := by
      refine ⟨fun h => hempty ?_, fun h => hcomma ?_, ?_⟩
      · rw [← String.toList_ofList (l := trim piece), h]
        rfl
      · rw [String.toList_ofList] at h
        rw [hpiece]
        exact List.mem_append_left _ (List.mem_append_right _ h)
      · rw [String.toList_ofList]
        exact trimmed_trim piece
    have hpiece' : piece = front ++ (String.ofList (trim piece)).toList ++ back := by
      rw [String.toList_ofList]
      exact hpiece
    have hread := hentry.entriesOf_between (isFiller_of_blank hfront) (isFiller_of_blank hback)
    rw [← hpiece'] at hread
    exact .inr ⟨_, front, back, hentry, isFiller_of_blank hfront, isFiller_of_blank hback,
      hpiece', hread⟩

/-- Fillers may stand in front of whatever lists entries. -/
theorem Lists.filler_append {filler : List Char} (hfiller : IsFiller filler)
    (h : Lists entries cs) : Lists entries (filler ++ cs) := by
  cases h with
  | none h => exact .none (List.forall_mem_append.mpr ⟨hfiller, h⟩)
  | one hfront hback =>
    rw [← List.append_assoc, ← List.append_assoc]
    exact .one (List.forall_mem_append.mpr ⟨hfiller, hfront⟩) hback
  | more hfront hback h =>
    rw [← List.append_assoc, ← List.append_assoc, ← List.append_assoc]
    exact .more (List.forall_mem_append.mpr ⟨hfiller, hfront⟩) hback h

/-- What is read from a text is listed by it: by induction on its length, since the text behind
its first comma is read on its own. -/
theorem lists_entriesOf (cs : List Char) :
    (∀ entry ∈ entriesOf cs, IsEntry entry) ∧ Lists (entriesOf cs) cs := by
  by_cases hcomma : ',' ∈ cs
  · obtain ⟨piece, rest, hcs, hpiece⟩ := List.eq_append_cons_of_mem hcomma
    have hshort : rest.length < cs.length := by
      rw [hcs, List.length_append, List.length_cons]
      omega
    obtain ⟨hentries, hlists⟩ := lists_entriesOf rest
    rw [hcs, entriesOf_append_comma]
    rcases piece_cases hpiece with ⟨hfiller, hread⟩ |
      ⟨entry, front, back, hentry, hfront, hback, hsplit, hread⟩
    · rw [hread, List.nil_append]
      refine ⟨hentries, ?_⟩
      rw [List.append_cons]
      exact hlists.filler_append (List.forall_mem_append.mpr
        ⟨hfiller, List.forall_mem_singleton.mpr (.inr rfl)⟩)
    · rw [hread, hsplit]
      exact ⟨List.forall_mem_cons.mpr ⟨hentry, hentries⟩, .more hfront hback hlists⟩
  · rcases piece_cases hcomma with ⟨hfiller, hread⟩ |
      ⟨entry, front, back, hentry, hfront, hback, hsplit, hread⟩
    · rw [hread]
      exact ⟨List.forall_mem_nil _, .none hfiller⟩
    · rw [hread, hsplit]
      exact ⟨List.forall_mem_singleton.mpr hentry, .one hfront hback⟩
termination_by cs.length

/-- Entries joined with single commas are listed. -/
theorem lists_joinWith (entries : List String) :
    Lists entries (joinWith "," entries).toList := by
  have hempty : IsFiller [] := List.forall_mem_nil _
  induction entries with
  | nil => exact .none hempty
  | cons entry entries ih =>
    cases entries with
    | nil => simpa [joinWith] using Lists.one hempty hempty
    | cons next entries => simpa [joinWith] using Lists.more hempty hempty ih

end Lists

/-- A text gives some entries exactly when it lists them and they are entries; so every text gives
entries that it lists, and every way to list entries gives them.  Joining what a text gives and
reading it again gives the same. -/
theorem commaItems_canonical (text : String) :
    (∀ entries, commaItems text = entries ↔
        (∀ entry ∈ entries, IsEntry entry) ∧ Lists entries text.toList) ∧
      commaItems (joinWith "," (commaItems text)) = commaItems text := by
  obtain ⟨hentries, hlists⟩ := lists_entriesOf text.toList
  rw [← commaItems_eq_entriesOf] at hentries hlists
  refine ⟨fun entries => ⟨?_, fun h => ?_⟩, ?_⟩
  · rintro rfl
    exact ⟨hentries, hlists⟩
  · rw [commaItems_eq_entriesOf]
    exact h.2.entriesOf_eq h.1
  · rw [commaItems_eq_entriesOf]
    exact (lists_joinWith _).entriesOf_eq hentries

/-- Blanks of every kind are taken off, and what is blank between commas is left out. -/
example : commaItems "\u3000VALID, PENDING\t,\u00a0, ,IN REVIEW" =
    ["VALID", "PENDING", "IN REVIEW"] := by decide

end ObjectQuery.Text
