/-
What a specification of a plugin says. A text divides at its first colon in one way (`PluginSpec.Divided`). The part
in front of it, without the blanks around it (`Text.Trimmed`), is the name, and what follows the colon is the
arguments with commas between them (`PluginSpec.Lists`). Each of the three relations determines what it relates a
text to (`PluginSpec.Divided.unique`, `Text.trimBlanks_eq_iff`, `PluginSpec.lists_some_iff`), so a text is read as they
say, or refused for a blank front (`PluginSpec.parse_eq_ok_iff`, `PluginSpec.parse_eq_error_iff`). What is written as a
specification is read as it (`PluginSpec.parse_text`).
-/
import Mathlib.Data.List.TakeWhile
import ProxyDhcp.PluginSpec

namespace ProxyDhcp

/-! ## Blanks around a text -/

namespace Text

/-- No blank stands at either end. -/
def Unpadded (chars : List Char) : Prop :=
  (∀ c ∈ chars.head?, isBlank c = false) ∧ ∀ c ∈ chars.getLast?, isBlank c = false

/-- The second text is the first one without the blanks around it. -/
structure Trimmed (chars inner : List Char) : Prop where
  around : ∃ front back, chars = front ++ inner ++ back ∧ ∀ c ∈ front ++ back, isBlank c = true
  unpadded : Unpadded inner

variable {chars inner : List Char}

theorem isBlank_of_head?_dropWhile {c : Char} (h : c ∈ (chars.dropWhile isBlank).head?) : isBlank c = false := by
  have := List.head?_dropWhile_not isBlank chars
  rwa [Option.mem_def.1 h] at this

theorem dropWhile_isBlank_of_head? (h : ∀ c ∈ chars.head?, isBlank c = false) :
    chars.dropWhile isBlank = chars := by
  cases chars with
  | nil => rfl
  | cons c chars => exact List.dropWhile_cons_of_neg (by rw [h c rfl]; decide)

theorem unpadded_trimBlanks (chars : List Char) : Unpadded (trimBlanks chars) := by
  constructor
  · intro c hc
    -- What is left at the front is a front of what the first cut leaves.
    obtain ⟨back, hback⟩ : trimBlanks chars <+: chars.dropWhile isBlank :=
      List.reverse_suffix.1 (by rw [trimBlanks, List.reverse_reverse]; exact List.dropWhile_suffix _)
    have hhead : c ∈ (chars.dropWhile isBlank).head? := by
      rw [← hback, List.head?_append, Option.mem_def.1 hc]
      rfl
    exact isBlank_of_head?_dropWhile hhead
  · intro c hc
    rw [trimBlanks, List.getLast?_reverse] at hc
    exact isBlank_of_head?_dropWhile hc

theorem trimmed_trimBlanks (chars : List Char) : Trimmed chars (trimBlanks chars) where
  around := by
    refine ⟨chars.takeWhile isBlank, ((chars.dropWhile isBlank).reverse.takeWhile isBlank).reverse, ?_, ?_⟩
    · rw [trimBlanks, List.append_assoc, ← List.reverse_append, List.takeWhile_append_dropWhile,
        List.reverse_reverse, List.takeWhile_append_dropWhile]
    · intro c hc
      rcases List.mem_append.1 hc with hc | hc
      · exact List.mem_takeWhile_imp hc
      · exact List.mem_takeWhile_imp (List.mem_reverse.1 hc)
  unpadded := unpadded_trimBlanks chars

/-- **Trimming leaves the one text that is trimmed.** -/
theorem trimBlanks_eq_iff : trimBlanks chars = inner ↔ Trimmed chars inner := by
  constructor
  · rintro rfl
    exact trimmed_trimBlanks chars
  · rintro ⟨⟨front, back, rfl, hblank⟩, hhead, hlast⟩
    rw [List.forall_mem_append] at hblank
    -- With nothing left between them the blanks are the whole text. Else the two ends of what is left stop the cuts.
    cases inner with
    | nil =>
      rw [List.append_nil, trimBlanks_eq_nil_iff, List.forall_mem_append]
      exact hblank
    | cons c inner =>
      have hfront : (front ++ c :: inner ++ back).dropWhile isBlank = c :: inner ++ back := by
        rw [List.append_assoc, List.dropWhile_append_of_pos hblank.1]
        exact dropWhile_isBlank_of_head? hhead
      have hback : (c :: inner ++ back).reverse.dropWhile isBlank = (c :: inner).reverse := by
        rw [List.reverse_append, List.dropWhile_append_of_pos fun c hc => hblank.2 c (List.mem_reverse.1 hc)]
        refine dropWhile_isBlank_of_head? fun d hd => hlast d ?_
        rwa [List.head?_reverse] at hd
      rw [trimBlanks, hfront, hback, List.reverse_reverse]

theorem Trimmed.of_unpadded (h : Unpadded chars) : Trimmed chars chars :=
  ⟨⟨[], [], by simp, by simp⟩, h⟩

theorem Trimmed.subset (h : Trimmed chars inner) : inner ⊆ chars := by
  obtain ⟨front, back, rfl, -⟩ := h.around
  exact fun c hc => List.mem_append_left back (List.mem_append_right front hc)

end Text

namespace PluginSpec

/-! ## The first colon -/

/-- A text, what stands in front of its first colon, and what follows it if there is one. -/
structure Divided (text front : String) (rest : Option String) : Prop where
  text_eq : text = rest.elim front fun rest => front ++ ":" ++ rest
  colon_free : ':' ∉ front.toList

variable {text front : String} {rest : Option String} {spec : PluginSpec}

theorem Divided.toList_eq (h : Divided text front rest) :
    text.toList = front.toList ++ rest.elim [] fun rest => ':' :: rest.toList := by
  rw [h.text_eq]
  cases rest <;> simp

theorem Divided.ne_colon (h : Divided text front rest) : ∀ c ∈ front.toList, (c != ':') = true := by
  intro c hc
  rw [bne_iff_ne]
  rintro rfl
  exact h.colon_free hc

theorem Divided.takeWhile (h : Divided text front rest) : text.toList.takeWhile (· != ':') = front.toList := by
  rw [h.toList_eq, List.takeWhile_append_of_pos h.ne_colon]
  cases rest <;> simp

theorem Divided.dropWhile (h : Divided text front rest) :
    text.toList.dropWhile (· != ':') = rest.elim [] fun rest => ':' :: rest.toList := by
  rw [h.toList_eq, List.dropWhile_append_of_pos h.ne_colon]
  cases rest <;> simp

theorem exists_divided (text : String) : ∃ front rest, Divided text front rest := by
  have hfront : ':' ∉ text.toList.takeWhile (· != ':') := fun h => by simpa using List.mem_takeWhile_imp h
  have htext := List.takeWhile_append_dropWhile (p := (· != ':')) (l := text.toList)
  cases hrest : text.toList.dropWhile (· != ':') with
  | nil =>
    rw [hrest, List.append_nil] at htext
    rw [htext] at hfront
    exact ⟨text, none, rfl, hfront⟩
  | cons c rest =>
    have hc := List.head?_dropWhile_not (· != ':') text.toList
    rw [hrest] at hc
    obtain rfl : c = ':' := by simpa using hc
    rw [hrest] at htext
    refine ⟨String.ofList (text.toList.takeWhile (· != ':')), some (String.ofList rest), ?_, by simpa using hfront⟩
    exact String.toList_inj.1 (htext.symm.trans (by simp))

/-- **A text divides in one way.** -/
theorem Divided.unique (h : Divided text front rest) {front' : String} {rest' : Option String}
    (h' : Divided text front' rest') : front' = front ∧ rest' = rest := by
  refine ⟨String.toList_inj.1 (h'.takeWhile.symm.trans h.takeWhile), ?_⟩
  have hrest := h'.dropWhile.symm.trans h.dropWhile
  cases rest with
  | none =>
    cases rest' with
    | none => rfl
    | some rest' => cases hrest
  | some rest =>
    cases rest' with
    | none => cases hrest
    | some rest' => exact congrArg some (String.toList_inj.1 (List.cons.inj hrest).2)

theorem Divided.colon_mem_iff (h : Divided text front rest) : ':' ∈ text.toList ↔ rest ≠ none := by
  rw [h.toList_eq]
  cases rest <;> simp [h.colon_free]

/-! ## The commas behind it -/

/-- What stands behind the colon lists the arguments: there is at least one, none holds a comma, and the text is all
of them in a row with a comma between neighbours. Without a colon there are none. -/
def Lists : Option String → List String → Prop
  | none, arguments => arguments = []
  | some rest, arguments =>
    arguments ≠ [] ∧ (∀ argument ∈ arguments, ',' ∉ argument.toList) ∧ String.intercalate "," arguments = rest

theorem not_mem_of_mem_splitOn {c : Char} {chars piece : List Char} (h : piece ∈ chars.splitOn c) : c ∉ piece := by
  induction chars generalizing piece with
  | nil =>
    rw [List.splitOn_nil, List.mem_singleton] at h
    rw [h]
    exact List.not_mem_nil
  | cons d chars ih =>
    rw [List.splitOn_cons_eq_if_modifyHead] at h
    obtain ⟨first, more, hpieces⟩ := List.exists_cons_of_ne_nil (List.splitOn_ne_nil c chars)
    rw [hpieces] at h ih
    split at h
    · rcases List.mem_cons.1 h with rfl | h
      · exact List.not_mem_nil
      · exact ih h
    · next hd =>
      rcases List.mem_cons.1 h with rfl | h
      · rw [List.mem_cons, not_or]
        exact ⟨fun hc => hd (beq_iff_eq.2 hc.symm), ih List.mem_cons_self⟩
      · exact ih (List.mem_cons_of_mem _ h)

/-- **Cutting at the commas undoes the joining**, and gives back nothing else. -/
theorem lists_some_iff {rest : String} {arguments : List String} :
    Lists (some rest) arguments ↔ (rest.toList.splitOn ',').map String.ofList = arguments := by
  constructor
  · rintro ⟨hne, hfree, rfl⟩
    have hjoin : (String.intercalate "," arguments).toList = [','].intercalate (arguments.map String.toList) :=
      String.toList_intercalate
    rw [hjoin, List.splitOn_intercalate ',' (by simpa using hfree) (by simpa using hne), List.map_map]
    simp [Function.comp_def]
  · rintro rfl
    refine ⟨by simp, ?_, ?_⟩
    · intro argument hargument
      obtain ⟨piece, hpiece, rfl⟩ := List.mem_map.1 hargument
      rw [String.toList_ofList]
      exact not_mem_of_mem_splitOn hpiece
    · rw [← String.toList_inj, String.toList_intercalate, List.map_map]
      simp [Function.comp_def, List.intercalate_splitOn]

theorem Divided.lists_iff (h : Divided text front rest) {arguments : List String} :
    Lists rest arguments ↔ (argumentChars text.toList).map String.ofList = arguments := by
  rw [argumentChars, h.dropWhile]
  cases rest with
  | none => exact eq_comm
  | some rest => exact lists_some_iff

theorem Lists.eq_nil_iff {arguments : List String} (h : Lists rest arguments) : arguments = [] ↔ rest = none := by
  cases rest with
  | none => exact iff_of_true h rfl
  | some rest => exact iff_of_false h.1 nofun

/-! ## Reading -/

/-- What can be the name of a specification. -/
structure IsName (name : String) : Prop where
  ne_empty : name ≠ ""
  colon_free : ':' ∉ name.toList
  unpadded : Text.Unpadded name.toList

theorem Divided.nameChars (h : Divided text front rest) :
    nameChars text.toList = Text.trimBlanks front.toList := by
  rw [PluginSpec.nameChars, h.takeWhile]

/-- A text fails if all in front of the first colon is blank, and the error shows it as it is. -/
theorem parse_eq_error_iff (h : Divided text front rest) {cause : Error} :
    parse text = .error cause ↔
      cause = .invalidPluginSpec text ∧ ∀ c ∈ front.toList, Text.isBlank c = true := by
  rw [parse, h.nameChars, ← Text.trimBlanks_eq_nil_iff, ← List.isEmpty_iff]
  split
  · next hblank => simp [hblank, eq_comm]
  · next hblank => simp [hblank]

/-- Otherwise it is read as the front without the blanks around it, and the arguments that stand behind the colon. -/
theorem parse_eq_ok_iff (h : Divided text front rest) :
    parse text = .ok spec ↔
      spec.name ≠ "" ∧ Text.Trimmed front.toList spec.name.toList ∧ Lists rest spec.arguments := by
  rw [h.lists_iff, ← Text.trimBlanks_eq_iff, ← h.nameChars]
  constructor
  · intro hparse
    rw [parse] at hparse
    split at hparse
    · cases hparse
    · next hname =>
      cases hparse
      exact ⟨by simpa using hname, String.toList_ofList.symm, rfl⟩
  · rintro ⟨hne, hname, harguments⟩
    rw [parse, hname, if_neg (by simpa using hne), harguments, String.ofList_toList]

/-- A front that is not all blank is enough for a text to be read. -/
theorem exists_parse_iff (h : Divided text front rest) :
    (∃ spec, parse text = .ok spec) ↔ ∃ c ∈ front.toList, Text.isBlank c = false := by
  cases hparse : parse text with
  | error cause =>
    obtain ⟨-, hblank⟩ := (parse_eq_error_iff h).1 hparse
    refine iff_of_false nofun fun ⟨c, hc, hnot⟩ => ?_
    rw [hblank c hc] at hnot
    cases hnot
  | ok spec =>
    refine iff_of_true ⟨spec, rfl⟩ ?_
    by_contra hblank
    have herror : parse text = .error (.invalidPluginSpec text) :=
      (parse_eq_error_iff h).2 ⟨rfl, by simpa using hblank⟩
    rw [hparse] at herror
    cases herror

theorem isName_of_parse (h : parse text = .ok spec) : IsName spec.name := by
  obtain ⟨front, rest, hdivided⟩ := exists_divided text
  obtain ⟨hne, htrimmed, -⟩ := (parse_eq_ok_iff hdivided).1 h
  exact ⟨hne, fun hcolon => hdivided.colon_free (htrimmed.subset hcolon), htrimmed.unpadded⟩

/-- **What is written as a specification is read as it.** -/
theorem parse_text (hname : IsName spec.name) (hfree : ∀ argument ∈ spec.arguments, ',' ∉ argument.toList) :
    parse spec.text = .ok spec := by
  by_cases hnone : spec.arguments = []
  · have hdivided : Divided spec.text spec.name none := ⟨by simp [text, hnone], hname.colon_free⟩
    exact (parse_eq_ok_iff hdivided).2 ⟨hname.ne_empty, .of_unpadded hname.unpadded, hnone⟩
  · have hdivided : Divided spec.text spec.name (some (String.intercalate "," spec.arguments)) :=
      ⟨by simp [text, hnone], hname.colon_free⟩
    exact (parse_eq_ok_iff hdivided).2 ⟨hname.ne_empty, .of_unpadded hname.unpadded, hnone, hfree, rfl⟩

/-- **A specification loses nothing.** A text divides at its first colon in one way. It is refused, with the text as it
is in the error, exactly if all in front of the colon is blank. Otherwise it is read as that part without the blanks
around it, a name without a colon, and as the pieces behind the colon, which make up all that stands there: none
exactly if there is no colon. And a name with at least one argument, written with a colon behind the name and commas
between the arguments, is read as they are. -/
theorem parse_exact :
    (∀ text, ∃ front rest,
      (∀ front' rest', Divided text front' rest' ↔ front' = front ∧ rest' = rest) ∧
      (∀ cause, parse text = .error cause ↔
        cause = .invalidPluginSpec text ∧ ∀ c ∈ front.toList, Text.isBlank c = true) ∧
      ((∃ spec, parse text = .ok spec) ↔ ∃ c ∈ front.toList, Text.isBlank c = false) ∧
      (∀ spec, parse text = .ok spec ↔
        spec.name ≠ "" ∧ Text.Trimmed front.toList spec.name.toList ∧ Lists rest spec.arguments) ∧
      ∀ spec, parse text = .ok spec → IsName spec.name ∧ (spec.arguments = [] ↔ ':' ∉ text.toList)) ∧
    ∀ name arguments, IsName name → arguments ≠ [] → (∀ argument ∈ arguments, ',' ∉ argument.toList) →
      parse (name ++ ":" ++ String.intercalate "," arguments) = .ok ⟨name, arguments⟩ := by
  constructor
  · intro text
    obtain ⟨front, rest, hdivided⟩ := exists_divided text
    refine ⟨front, rest, fun front' rest' => ⟨hdivided.unique, ?_⟩, fun cause => parse_eq_error_iff hdivided,
      exists_parse_iff hdivided, fun spec => parse_eq_ok_iff hdivided,
      fun spec hspec => ⟨isName_of_parse hspec, ?_⟩⟩
    · rintro ⟨rfl, rfl⟩
      exact hdivided
    · obtain ⟨-, -, hlists⟩ := (parse_eq_ok_iff hdivided).1 hspec
      rw [hlists.eq_nil_iff, hdivided.colon_mem_iff, ne_eq, not_not]
  · intro name arguments hname hne hfree
    have hparse : parse (PluginSpec.text ⟨name, arguments⟩) = .ok ⟨name, arguments⟩ := parse_text hname hfree
    rwa [text, if_neg (by simpa using hne)] at hparse

/-- A name between a wide blank and a narrow one, behind it arguments with a colon, with a blank, and empty ones; a
specification of blanks alone; and one that is written from a name of two words. -/
theorem parse_exact_padded :
    parse "\u3000pxe :a:b,, c," = .ok ⟨"pxe", ["a:b", "", " c", ""]⟩ ∧
      parse " \t:pxe" = .error (.invalidPluginSpec " \t:pxe") ∧
      parse "boot menu:,a:b, " = .ok ⟨"boot menu", ["", "a:b", " "]⟩ := by
  obtain ⟨hreads, hwritten⟩ := parse_exact
  refine ⟨?_, ?_, ?_⟩
  · obtain ⟨front, rest, hdivided, -, -, hok, -⟩ := hreads "\u3000pxe :a:b,, c,"
    obtain ⟨rfl, rfl⟩ := (hdivided "\u3000pxe " (some "a:b,, c,")).1 ⟨rfl, by decide⟩
    refine (hok _).2 ⟨by decide, ⟨⟨['\u3000'], [' '], rfl, by simp [Text.isBlank]⟩, ?_⟩, by decide, by decide, rfl⟩
    simp [Text.Unpadded, Text.isBlank]
  · obtain ⟨front, rest, hdivided, herror, -⟩ := hreads " \t:pxe"
    obtain ⟨rfl, rfl⟩ := (hdivided " \t" (some "pxe")).1 ⟨rfl, by decide⟩
    exact (herror _).2 ⟨rfl, by simp [Text.isBlank]⟩
  · have hname : IsName "boot menu" := ⟨by decide, by decide, by simp [Text.Unpadded, Text.isBlank]⟩
    exact hwritten "boot menu" ["", "a:b", " "] hname (by decide) (by decide)

end PluginSpec

end ProxyDhcp
