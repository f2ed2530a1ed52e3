import MarkupAudit.Markup.Style
import MarkupAudit.Proofs.Markup.Assignment
import MarkupAudit.Proofs.Markup.InnerText
import MarkupAudit.Proofs.Text.Idempotence

/-! # The declarations of a style

A style attribute has declarations with semicolons between them. Each property keeps the place of
its first declaration and takes the value of its last one, and what stands between two semicolons
without a colon changes nothing. -/

namespace MarkupAudit

namespace Text

/-! ## Pieces between separators -/

section Pieces

variable {separator : Char} {piece : Text}

theorem splitAt_ne_nil (separator : Char) (t : Text) : splitAt separator t ≠ [] := by
  cases t with
  | nil => simp [splitAt]
  | cons c r =>
      rw [splitAt]
      split
      · simp
      · split <;> simp

theorem splitAt_append (h : separator ∉ piece) (r : Text) :
    splitAt separator (piece ++ r) = (splitAt separator r).modifyHead (piece ++ ·) := by
  induction piece with
  | nil => cases hr : splitAt separator r <;> simp [hr]
  | cons c piece ih =>
      obtain ⟨hc, hpiece⟩ := List.ne_and_not_mem_of_not_mem_cons h
      obtain ⟨first, others, hr⟩ := List.exists_cons_of_ne_nil (splitAt_ne_nil separator r)
      rw [List.cons_append, splitAt, if_neg (Ne.symm hc), ih hpiece, hr]
      rfl

theorem splitAt_of_notMem (h : separator ∉ piece) : splitAt separator piece = [piece] := by
  simpa [splitAt] using splitAt_append h []

theorem splitAt_append_separator (h : separator ∉ piece) (r : Text) :
    splitAt separator (piece ++ separator :: r) = piece :: splitAt separator r := by
  simpa [splitAt] using splitAt_append h (separator :: r)

/-- Pieces that are joined are split again. -/
theorem splitAt_join {pieces : List Text} (hne : pieces ≠ [])
    (h : ∀ piece ∈ pieces, separator ∉ piece) :
    splitAt separator (join [separator] pieces) = pieces := by
  induction pieces with
  | nil => exact absurd rfl hne
  | cons piece pieces ih =>
      obtain ⟨hpiece, hothers⟩ := List.forall_mem_cons.mp h
      by_cases hnil : pieces = []
      · rw [hnil]
        exact splitAt_of_notMem hpiece
      · rw [join_cons_of_ne_nil _ _ hnil, List.append_assoc, List.singleton_append,
          splitAt_append_separator hpiece, ih hnil hothers]

end Pieces

theorem lower_eq_nil_iff {t : Text} : lower t = [] ↔ t = [] := by
  constructor
  · intro h
    by_contra hne
    obtain ⟨c, r, rfl⟩ := List.exists_cons_of_ne_nil hne
    obtain ⟨pieces, hpieces, hlower⟩ := exists_lowerFrom [] (c :: r)
    cases hpieces with
    | cons hpiece _ =>
        rw [lower, hlower, List.flatten_cons, List.append_eq_nil_iff] at h
        exact hpiece.ne_nil h.1
  · rintro rfl
    rfl

end Text

namespace Markup

open Text

/-! ## Entries of a style -/

namespace Style

/-- Sets the properties of some entries, from left to right. -/
def setAll (style : Style) (entries : List (Text × Text)) : Style :=
  entries.foldl (fun style entry => style.set entry.1 entry.2) style

/-- Of each property the last entry, in the order of the first ones. -/
def latest (entries : List (Text × Text)) : Style :=
  (entries.map (·.1)).eraseDups.filterMap fun property =>
    (entries.filter (·.1 == property)).getLast?

/-- The first entry stays first, with the last value that its property is given, and the other
properties are set behind it. -/
theorem setAll_cons (p v : Text) (style : Style) (entries : List (Text × Text)) :
    setAll ((p, v) :: style) entries =
      (entries.filter (·.1 == p)).getLast?.getD (p, v) ::
        setAll style (entries.filter (!·.1 == p)) := by
  induction entries generalizing v style with
  | nil => rfl
  | cons entry entries ih =>
      obtain ⟨q, w⟩ := entry
      by_cases hq : q = p
      · subst hq
        have hset : set q w ((q, v) :: style) = (q, w) :: style := by simp [set]
        rw [setAll, List.foldl_cons, hset, ← setAll, ih]
        simp [List.getLast?_cons]
      · have hset : set q w ((p, v) :: style) = (p, v) :: set q w style := by
          simp [set, Ne.symm hq]
        rw [setAll, List.foldl_cons, hset, ← setAll, ih]
        simp [hq, setAll]

theorem latest_cons (p v : Text) (entries : List (Text × Text)) :
    latest ((p, v) :: entries) =
      (entries.filter (·.1 == p)).getLast?.getD (p, v) :: latest (entries.filter (!·.1 == p)) := by
  have hlast : (((p, v) :: entries).filter (·.1 == p)).getLast? =
      some ((entries.filter (·.1 == p)).getLast?.getD (p, v)) := by
    rw [List.filter_cons_of_pos (by simp), List.getLast?_cons]
  rw [latest, List.map_cons, List.eraseDups_cons, List.filterMap_cons, hlast, List.filter_map]
  refine congrArg _ (List.filterMap_congr ?_)
  intro q hq
  obtain ⟨entry, hentry, rfl⟩ := List.mem_map.mp (List.mem_eraseDups.mp hq)
  have hne : entry.1 ≠ p := by simpa using (List.mem_filter.mp hentry).2
  rw [List.filter_cons_of_neg (by simpa using Ne.symm hne), List.filter_filter]
  congr 2
  funext other
  by_cases hother : other.1 = entry.1 <;> simp [hother, hne]

/-- Setting properties from left to right gives each the place of its first entry and the value of
its last one. -/
theorem setAll_eq_latest (entries : List (Text × Text)) : setAll [] entries = latest entries := by
  -- The entries of the first property are left out for the others, so there are fewer of them.
  induction hn : entries.length using Nat.strong_induction_on generalizing entries with
  | h n ih =>
      cases entries with
      | nil => rfl
      | cons entry entries =>
          obtain ⟨p, v⟩ := entry
          have hlt : (entries.filter (!·.1 == p)).length < n := by
            have hle := List.length_filter_le (!·.1 == p) entries
            rw [List.length_cons] at hn
            omega
          rw [latest_cons, ← ih _ hlt _ rfl, ← setAll_cons]
          rfl

end Style

/-! ## Declarations -/

/-- A declaration that a quoted attribute can have. -/
structure Declaration where
  property : Text
  value : Text
  visible : isFiller property = false
  property_ne : ∀ c ∈ property, c ∉ [':', ';', '"', '>']
  value_ne : ∀ c ∈ value, c ∉ [';', '"', '>']

namespace Declaration

/-- The declaration as it is written. -/
def text (d : Declaration) : Text :=
  d.property ++ ':' :: d.value

/-- The property and the value that are meant. -/
def entry (d : Declaration) : Text × Text :=
  (lower (trim d.property), trim d.value)

end Declaration

/-- What stands between two semicolons: a declaration, or something without a colon, white space
for example. -/
inductive Chunk where
  | declaration (d : Declaration)
  | idle (t : Text) (ne : ∀ c ∈ t, c ∉ [':', ';', '"', '>'])

namespace Chunk

/-- What stands there. -/
def text : Chunk → Text
  | declaration d => d.text
  | idle t _ => t

/-- The declaration, if it is one. -/
def declaration? : Chunk → Option Declaration
  | declaration d => some d
  | idle _ _ => none

theorem text_ne (k : Chunk) : ∀ c ∈ k.text, c ∉ [';', '"', '>'] := by
  intro c hc
  cases k with
  | declaration d =>
      rcases List.mem_append.mp hc with hproperty | hvalue
      · exact fun hmem => d.property_ne c hproperty (List.mem_cons_of_mem _ hmem)
      · rcases List.mem_cons.mp hvalue with rfl | hvalue
        · decide
        · exact d.value_ne c hvalue
  | idle t ne => exact fun hmem => ne c hc (List.mem_cons_of_mem _ hmem)

end Chunk

theorem Style.declare_text (style : Style) (d : Declaration) :
    style.declare d.text = style.set d.entry.1 d.entry.2 := by
  have hcolon : ∀ c ∈ d.property, (c != ':') = true := by
    intro c hc
    have hne := d.property_ne c hc
    simp_all
  have hentry : (lower (trim d.property)).isEmpty = false := by
    rw [List.isEmpty_eq_false_iff, Ne, lower_eq_nil_iff, trim_eq_nil_iff, d.visible]
    decide
  rw [declare, Declaration.text, List.dropWhile_append_of_pos hcolon,
    List.takeWhile_append_of_pos hcolon]
  simp [hentry, Declaration.entry]

theorem Style.declare_of_notMem (style : Style) {t : Text} (h : ':' ∉ t) :
    style.declare t = style := by
  have hall : t.dropWhile (· != ':') = [] := by
    rw [List.dropWhile_eq_nil_iff]
    intro c hc
    simp only [bne_iff_ne, ne_eq]
    rintro rfl
    exact h hc
  rw [declare, hall]

/-- A chunk sets the entry of its declaration, and nothing if it has none. -/
theorem Style.declare_chunk (style : Style) (k : Chunk) :
    style.declare k.text = style.setAll (k.declaration?.map (·.entry)).toList := by
  cases k with
  | declaration d => exact style.declare_text d
  | idle t ne => exact style.declare_of_notMem fun hmem => ne ':' hmem (by decide)

theorem Style.foldl_declare (style : Style) (chunks : List Chunk) :
    (chunks.map (·.text)).foldl declare style =
      style.setAll ((chunks.filterMap (·.declaration?)).map (·.entry)) := by
  induction chunks generalizing style with
  | nil => rfl
  | cons k chunks ih =>
      rw [List.map_cons, List.foldl_cons, ih, declare_chunk]
      cases hk : k.declaration? with
      | none => rw [List.filterMap_cons_none hk]; rfl
      | some d => rw [List.filterMap_cons_some hk]; rfl

theorem Style.ofText_join (chunks : List Chunk) :
    ofText (join [';'] (chunks.map (·.text))) =
      setAll [] ((chunks.filterMap (·.declaration?)).map (·.entry)) := by
  by_cases hne : chunks = []
  · rw [hne]
    rfl
  · have hsemicolon : ∀ piece ∈ chunks.map (·.text), ';' ∉ piece := by
      intro piece hpiece hmem
      obtain ⟨k, -, rfl⟩ := List.mem_map.mp hpiece
      exact k.text_ne _ hmem (by decide)
    rw [ofText, splitAt_join (by simpa using hne) hsemicolon, foldl_declare]

/-! ## Tags with a style -/

/-- An opening tag with a style attribute. -/
structure StyledTag where
  name : Text
  chunks : List Chunk
  name_isNameChar : ∀ c ∈ name, isNameChar c

namespace StyledTag

/-- The value of the style attribute. -/
def style (tag : StyledTag) : Text :=
  join [';'] (tag.chunks.map (·.text))

/-- The tag as it is written. -/
def text (tag : StyledTag) : Text :=
  '<' :: tag.name ++ " style=\"".toList ++ tag.style ++ "\">".toList

/-- The properties and values that the style declares, in order. -/
def entries (tag : StyledTag) : List (Text × Text) :=
  (tag.chunks.filterMap (·.declaration?)).map (·.entry)

/-- The tag with its declarations only. -/
def declared (tag : StyledTag) : StyledTag :=
  { tag with chunks := (tag.chunks.filterMap (·.declaration?)).map .declaration }

theorem entries_declared (tag : StyledTag) : tag.declared.entries = tag.entries := by
  simp [declared, entries, List.filterMap_map, Chunk.declaration?]

theorem style_ne (tag : StyledTag) : '"' ∉ tag.style ∧ '>' ∉ tag.style := by
  have hne : ∀ c ∈ tag.style, c = ';' ∨ c ∉ [';', '"', '>'] := by
    intro c hc
    refine (eq_or_mem_of_mem_join hc).imp_right fun hmem => ?_
    obtain ⟨piece, hpiece, hc⟩ := List.mem_flatten.mp hmem
    obtain ⟨k, -, rfl⟩ := List.mem_map.mp hpiece
    exact k.text_ne c hc
  exact ⟨fun hmem => by simpa using hne _ hmem, fun hmem => by simpa using hne _ hmem⟩

/-- The style attribute. -/
def styleAttribute (tag : StyledTag) : RenderedAttribute where
  name := Token.of "style".toList (by decide)
  value := some (.quoted ⟨.double, tag.style, tag.style_ne.1, tag.style_ne.2⟩)

/-- The tag as one that is rendered with a single attribute. -/
def rendered (tag : StyledTag) : RenderedTag where
  name := tag.name
  attributes := [tag.styleAttribute]
  name_isNameChar := tag.name_isNameChar

theorem text_rendered (tag : StyledTag) : tag.rendered.text = tag.text := by
  simp [rendered, styleAttribute, RenderedTag.text, RenderedTag.rest, RenderedAttribute.shown,
    RenderedAttribute.assignment, RenderedValue.text, QuotedValue.text, Quotation.mark, Token.of,
    text]

theorem attributeValue_style (tag : StyledTag) : attributeValue tag.text "style" = tag.style := by
  let name := tag.styleAttribute.name
  have hattribute : tag.styleAttribute.given? name.text = tag.styleAttribute.value :=
    RenderedAttribute.given?_eq_some.mpr ⟨isSpelled_self name.text, rfl⟩
  have hvalue : attributeValue? tag.rendered.text name.text = some tag.style := by
    rw [attributeValue?_rendered, RenderedTag.given?, rendered, List.findSome?_cons, hattribute]
    rfl
  rw [text_rendered] at hvalue
  exact congrArg (·.getD []) hvalue

theorem styleOf_text (tag : StyledTag) : styleOf tag.text = Style.setAll [] tag.entries := by
  rw [styleOf, attributeValue_style]
  exact Style.ofText_join tag.chunks

end StyledTag

/-- The style of a tag is what comes of setting the declared properties from left to right, in lower
case and without white space around them and their values. So each property has the place of its
first declaration and the value of its last one, and what is not a declaration changes nothing. -/
theorem styleOf_declares (tag : StyledTag) :
    styleOf tag.text = Style.setAll [] tag.entries ∧
      styleOf tag.text = Style.latest tag.entries ∧
      styleOf tag.text = styleOf tag.declared.text := by
  refine ⟨tag.styleOf_text, ?_, ?_⟩
  · rw [tag.styleOf_text, Style.setAll_eq_latest]
  · rw [tag.styleOf_text, tag.declared.styleOf_text, tag.entries_declared]

/-- A colour is declared twice, the second time behind a blank part, a note and another property. -/
theorem styleOf_declares_colour_twice :
    let first : Declaration := ⟨"Color".toList, " red".toList, rfl, by simp, by simp⟩
    let background : Declaration := ⟨"background".toList, "url(a:b)".toList, rfl, by simp, by simp⟩
    let last : Declaration := ⟨"COLOR ".toList, " #FFF ".toList, rfl, by simp, by simp⟩
    let tag : StyledTag :=
      { name := ['x']
        chunks := [.declaration first, .idle [' '] (by simp), .idle "note".toList (by simp),
          .declaration background, .declaration last]
        name_isNameChar := by simp; rfl }
    String.ofList tag.text =
        "<x style=\"Color: red; ;note;background:url(a:b);COLOR : #FFF \">" ∧
      tag.entries = [("color".toList, "red".toList), ("background".toList, "url(a:b)".toList),
        ("color".toList, "#FFF".toList)] ∧
      styleOf tag.text =
        [("color".toList, "#FFF".toList), ("background".toList, "url(a:b)".toList)] ∧
      String.ofList tag.declared.text =
        "<x style=\"Color: red;background:url(a:b);COLOR : #FFF \">" ∧
      styleOf tag.declared.text = styleOf tag.text := by
  intro first background last tag
  have hentries : tag.entries = [("color".toList, "red".toList),
      ("background".toList, "url(a:b)".toList), ("color".toList, "#FFF".toList)] := by
    decide +kernel
  obtain ⟨hset, -, hsame⟩ := styleOf_declares tag
  refine ⟨by decide +kernel, hentries, ?_, by decide +kernel, hsame.symm⟩
  rw [hset, hentries]
  decide +kernel

end Markup

end MarkupAudit
