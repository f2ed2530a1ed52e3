import MarkupAudit.Proofs.Markup.Relayout
import MarkupAudit.Proofs.Pattern.First

/-! # Elements in a text in pieces

An element reaches from its opening tag to the first closing tag of its name, and which pieces it
covers depends only on which tags have that name. The body of an element contains a tag of a name
just if one of its pieces is such a tag. -/

namespace MarkupAudit

namespace Markup

/-! ## Closing tags -/

/-- Whether the tag is a closing tag of the name. -/
def Tag.closes (u : Tag) (name : Text) : Bool :=
  u.body.head? == some '/' && Text.startsLike name (u.body.drop 1) &&
    (u.body.drop (1 + name.length)).all Text.isBlank

theorem Tag.Amended.closes_eq {u u' : Tag} (h : u.Amended u') (name : Text) :
    u'.closes name = u.closes name := by
  rcases h.eq_or_exists_body with rfl | ⟨c, b, b', halpha, hbody, hbody'⟩
  · rfl
  · have hne : (some c == some '/') = false := by
      rw [beq_eq_false_iff_ne, ne_eq, Option.some.injEq]
      rintro rfl
      revert halpha
      decide
    simp [closes, hbody, hbody', hne]

/-- A name that is spelled before a closing bracket is spelled without it. -/
theorem startsLike_bracket {name : Text} (hname : name.all Char.isAlphanum) (b r : Text) :
    Text.startsLike name (b ++ '>' :: r) = Text.startsLike name b := by
  induction name generalizing b with
  | nil => simp [Text.startsLike]
  | cons c name ih =>
      rw [List.all_cons, Bool.and_eq_true] at hname
      cases b with
      | nil => simp [Text.startsLike, Text.sameFold_bracket hname.1]
      | cons x b => simp [Text.startsLike, ih hname.2]

theorem length_le_of_startsLike {name b : Text} (h : Text.startsLike name b) :
    name.length ≤ b.length := by
  induction name generalizing b with
  | nil => exact Nat.zero_le _
  | cons c name ih =>
      cases b with
      | nil => cases h
      | cons x b =>
          rw [Text.startsLike, Bool.and_eq_true] at h
          exact Nat.succ_le_succ (ih h.2)

/-- Behind a part of a tag, white space reaches to the closing bracket just if nothing else is left
of the tag. -/
theorem standsAt_bracket_blanks {t b r : Text} {q : ℕ} (hdrop : t.drop q = b ++ '>' :: r)
    (hb : '>' ∉ b) :
    t.standsAt ">".toList (q + ((t.drop q).takeWhile Text.isBlank).length) = b.all Text.isBlank ∧
      (b.all Text.isBlank → ((t.drop q).takeWhile Text.isBlank).length = b.length) := by
  rw [Text.standsAt_bracket, Text.getElem?_eq_head?_dropWhile, hdrop,
    Text.dropWhile_append_stop (by decide), Text.takeWhile_append_stop (by decide)]
  constructor
  · rw [Bool.eq_iff_iff, List.all_eq_true, ← List.dropWhile_eq_nil_iff]
    constructor
    · intro hany
      by_contra hne
      obtain ⟨x, rest, hrest⟩ := List.exists_cons_of_ne_nil hne
      have hx : x ∈ b := (List.dropWhile_suffix Text.isBlank).subset (by rw [hrest]; simp)
      rw [hrest, List.cons_append, List.head?_cons, Option.any_some, beq_iff_eq] at hany
      exact hb (hany ▸ hx)
    · intro hnil
      simp [hnil]
  · intro hall
    rw [List.takeWhile_eq_self_iff.mpr (List.all_eq_true.mp hall)]

/-- Behind `</`, a closing tag of the name is the name and white space up to the closing bracket. -/
theorem closingTagStop?_slash {t b r name : Text} {q : ℕ} (hslash : t.standsAt "</".toList q)
    (hdrop : t.drop (q + 2) = b ++ '>' :: r) (hb : '>' ∉ b) (hname : name.all Char.isAlphanum) :
    closingTagStop? t name q =
      if Text.startsLike name b && (b.drop name.length).all Text.isBlank then
        some (q + b.length + 3)
      else none := by
  have hspelled : t.spelledAt name (q + 2) = Text.startsLike name b := by
    rw [Text.spelledAt, hdrop, startsLike_bracket hname]
  rw [closingTagStop?, hslash, hspelled]
  cases hstarts : Text.startsLike name b with
  | false => rfl
  | true =>
      have hle := length_le_of_startsLike hstarts
      have hrest : t.drop (q + 2 + name.length) = b.drop name.length ++ '>' :: r := by
        rw [← List.drop_drop, hdrop, List.drop_append_of_le_length hle]
      have hnone : '>' ∉ b.drop name.length := fun hmem => hb (List.mem_of_mem_drop hmem)
      obtain ⟨hstands, hblanks⟩ := standsAt_bracket_blanks hrest hnone
      simp only [Bool.true_and, hstands]
      cases hall : (b.drop name.length).all Text.isBlank with
      | false => rfl
      | true =>
          rw [if_pos rfl, if_pos rfl, hblanks hall, List.length_drop]
          congr 1
          omega

theorem closingTagStop?_tag {t : Text} {q : ℕ} {u : Tag} (hu : t.standsAt u.text q) {name : Text}
    (hname : name.all Char.isAlphanum) :
    closingTagStop? t name q = if u.closes name then some (q + u.text.length) else none := by
  obtain ⟨r, hr⟩ := List.isPrefixOf_iff_prefix.mp hu
  have hdrop : t.drop (q + 1) = u.body ++ '>' :: r := by
    rw [← List.drop_drop, ← hr]
    simp [Tag.text]
  have hslash : t.standsAt "</".toList q = (u.body.head? == some '/') := by
    rw [Text.standsAt, ← hr, Tag.text]
    cases u.body <;> simp [List.isPrefixOf, Bool.beq_comm]
  rw [Tag.closes, ← hslash]
  cases hstands : t.standsAt "</".toList q with
  | false =>
      rw [closingTagStop?, hstands]
      rfl
  | true =>
      rw [hstands, eq_comm, beq_iff_eq] at hslash
      obtain ⟨b, hbody⟩ := List.head?_eq_some_iff.mp hslash
      have hclosing := u.closing_notMem
      rw [hbody, List.mem_cons, not_or] at hclosing
      have hrest : t.drop (q + 2) = b ++ '>' :: r := by
        rw [show q + 2 = q + 1 + 1 from rfl, ← List.drop_drop, hdrop, hbody]
        rfl
      rw [closingTagStop?_slash hstands hrest hclosing.2 hname, hbody, Tag.length_text, hbody,
        List.length_cons, List.drop_succ_cons, List.drop_zero, Nat.add_comm 1,
        List.drop_succ_cons, Bool.true_and]
      rfl

theorem brackets_of_closingTagStop? {t name : Text} {q e : ℕ}
    (h : closingTagStop? t name q = some e) : t[q]? = some '<' ∧ '>' ∈ t.drop q := by
  simp only [closingTagStop?, Option.ite_none_right_eq_some, Bool.and_eq_true] at h
  obtain ⟨⟨⟨hopen, -⟩, hclose⟩, -⟩ := h
  rw [show "</".toList = ['<', '/'] from rfl, Text.standsAt_cons, Bool.and_eq_true] at hopen
  obtain ⟨c, hc, heq⟩ := (Option.any_eq_true _ _).mp hopen.1
  rw [Text.standsAt_bracket] at hclose
  obtain ⟨d, hd, heq'⟩ := (Option.any_eq_true _ _).mp hclose
  refine ⟨hc.trans (congrArg some (beq_iff_eq.mp heq)), ?_⟩
  rw [beq_iff_eq.mp heq', Nat.add_assoc, Nat.add_assoc, ← List.getElem?_drop] at hd
  exact List.mem_of_getElem? hd

end Markup

namespace Pattern

open Cursor Markup

theorem run_closingTag (name : String) (t : Text) (q : ℕ) :
    (closingTag (word name)).run (place t q []) some =
      (closingTagStop? t name.toList q).map (place t · []) := by
  rw [run_closingTag_place, Option.map_eq_bind]
  rfl

/-- The pattern of closing tags takes single tags. -/
theorem takesPieces_closingTag {name : String} (hname : IsName name) :
    TakesPieces (closingTag (word name)) fun u _ =>
      if u.closes name.toList then some 0 else none where
  run_of_ne {t q} hq := by
    rw [run_closingTag, Option.map_eq_none_iff]
    exact Option.eq_none_iff_forall_ne_some.mpr fun e he => hq (brackets_of_closingTagStop? he).1
  run_of_notMem {t q} hq := by
    rw [run_closingTag, Option.map_eq_none_iff]
    exact Option.eq_none_iff_forall_ne_some.mpr fun e he => hq (brackets_of_closingTagStop? he).2
  run_tag {d before u after} hpieces := by
    rw [run_closingTag, closingTagStop?_tag (Layout.standsAt_tag hpieces) hname.2]
    cases u.closes name.toList <;> rfl

/-! ## Elements -/

/-- The shortest run of any characters up to one of the things stops where the first of them
does. -/
theorem run_shortest_next? {t : Text} (o : Occurrences t) {p : Pattern}
    (hp : ∀ k, p.run (place t k []) some = (o.stop? k).map (place t · [])) {q : ℕ}
    (hq : q ≤ t.length) :
    (shortest fun _ => true).run (place t q []) (fun there => p.run there some) =
      (o.next? q).map fun found => place t found.2 [] := by
  rw [run_shortest_any t hq, Occurrences.next?]
  simp only [hp, Option.isSome_map]
  cases t.least? q fun k => (o.stop? k).isSome with
  | none => rfl
  | some k => cases h : o.stop? k <;> simp [h]

end Pattern

namespace Markup

/-- The number of pieces behind an opening tag of the name that belong to the element: those up to
and with the first closing tag, or none if there is no closing tag. -/
def elementTakes (name : Text) (u : Tag) (after : List Piece) : Option ℕ :=
  if u.isNamed name then
    some (((after.findIdx? (Piece.isTag (·.closes name))).map (· + 1)).getD 0)
  else none

/-- The first of the tags of which something holds. -/
theorem head?_spans (holds : Tag → Bool) (q : ℕ) (pieces : List Piece) :
    (spans (fun u _ => if holds u then some 0 else none) 0 q pieces).head?.map Prod.snd =
      (pieces.findIdx? (Piece.isTag holds)).map fun k =>
        q + (render (pieces.take (k + 1))).length := by
  induction pieces generalizing q with
  | nil => rfl
  | cons x pieces ih =>
      cases x with
      | plain t ht =>
          rw [spans, ih, List.findIdx?_cons, Piece.isTag]
          simp [Function.comp_def, Piece.text, Nat.add_assoc]
      | tag u =>
          rw [spans_tag, List.findIdx?_cons, Piece.isTag]
          cases holds u with
          | false => simp [ih, Function.comp_def, Piece.text, Nat.add_assoc]
          | true => simp [Piece.text]

end Markup

namespace Pattern

open Cursor Markup

/-- The first single tag that is taken behind some pieces. -/
theorem TakesPieces.next?_stop {p : Pattern} {holds : Tag → Bool}
    (h : TakesPieces p fun u _ => if holds u then some 0 else none) {d : Layout}
    {before after : List Piece} (hpieces : d.pieces = before ++ after) :
    ((h.occurrences d).next? (render before).length).map Prod.snd =
      (after.findIdx? (Piece.isTag holds)).map fun k =>
        (render before).length + (render (after.take (k + 1))).length := by
  have hscan := h.scan_eq_spans d 0 before after hpieces
  rw [List.take_zero, List.append_nil] at hscan
  rw [← Occurrences.head?_scan, hscan, head?_spans]

/-- Behind its opening tag, an element goes on behind its first closing tag, if there is one. -/
theorem run_optional_closing {name : String} (hname : IsName name) {d : Layout}
    {before after : List Piece} (hpieces : d.pieces = before ++ after) :
    (optional (shortest (fun _ => true) ++ closingTag (word name))).run
        (place d.text (render before).length []) some =
      some (place d.text ((render before).length + (render (after.take
        (((after.findIdx? (Piece.isTag (·.closes name.toList))).map (· + 1)).getD 0))).length)
          []) := by
  have hclosing := takesPieces_closingTag hname
  have hstops : ∀ k, (closingTag (word name)).run (place d.text k []) some =
      ((hclosing.occurrences d).stop? k).map (place d.text · []) := by
    intro k
    change _ = (((closingTag (word name)).run (place d.text k []) some).map (·.offset)).map _
    rw [run_closingTag, Option.map_map, Option.map_map]
    rfl
  have hlen : (render before).length ≤ d.text.length := by
    simp [Layout.text, hpieces]
  have hstop := hclosing.next?_stop hpieces
  rw [optional, run_orElse, run_append, run_shortest_next? _ hstops hlen]
  cases hnext : (hclosing.occurrences d).next? (render before).length with
  | none =>
      rw [hnext, Option.map_none, eq_comm, Option.map_eq_none_iff] at hstop
      rw [hstop]
      rfl
  | some found =>
      rw [hnext, Option.map_some, eq_comm, Option.map_eq_some_iff] at hstop
      obtain ⟨k, hk, hfound⟩ := hstop
      rw [hk, Option.map_some, Option.map_some, Option.getD_some, hfound]
      rfl

/-- The pattern of an element or its opening tag takes the pieces of the element. -/
theorem takesPieces_elementOrTag {name : String} (hname : IsName name) :
    TakesPieces (elementOrTag name) (elementTakes name.toList) := by
  have hopens : OpensTag (tag [name]) _ := opensTag_tag (by simpa using hname)
  have hrun : ∀ here, (elementOrTag name).run here some = (tag [name]).run here fun there =>
      (optional (shortest (fun _ => true) ++ closingTag (word name))).run there some :=
    fun _ => rfl
  refine ⟨fun hq => ?_, fun hq => ?_, fun {d before u after} hpieces => ?_⟩
  · rw [hrun, hopens.run_of_ne hq]
  · rw [hrun, hopens.run_of_notMem hq]
  · have hclosing := run_optional_closing hname
      (show d.pieces = (before ++ [.tag u]) ++ after by simp [hpieces])
    simp only [render_append, render_cons, render_nil, List.append_nil, List.length_append,
      Piece.text] at hclosing
    rw [hrun, hopens.run_tag (Layout.standsAt_tag hpieces), hclosing,
      startsIn_tag (by simp) (by simpa using hname), List.any_cons, List.any_nil, Bool.or_false,
      elementTakes]
    cases u.isNamed name.toList <;> rfl

end Pattern

namespace Markup

/-! ## Bodies -/

/-- The start of an opening tag of the name, if one can be read at the start of a text. -/
def tagStartRead? (name : Text) : Text → Option ℕ
  | [] => none
  | c :: r =>
    if c == '<' && (Text.startsLike name r && !(r.drop name.length).head?.any Text.isWord) then
      some (name.length + 1)
    else none

open Pattern Cursor in
theorem reads_tagStart {name : String} (hname : IsName name) :
    ReadsRest (tagStart (word name)) (tagStartRead? name.toList) := by
  intro t q held
  have happend : (tagStart (word name)).run (place t q held) some =
      (word "<").run (place t q held) fun there => (word name).run there fun there =>
        wordEdge.run there some := rfl
  have hopen : t.standsAt "<".toList q = t[q]?.any (· == '<') := Text.standsAt_singleton t '<' q
  rw [happend, run_word_of_isMark (by decide), hopen, run_word_place]
  cases h : t.drop q with
  | nil =>
      rw [Text.getElem?_of_drop_nil h]
      rfl
  | cons c r =>
      obtain ⟨hget, hrest⟩ := Text.getElem?_of_drop h
      have hdrop : t.drop (q + 1 + name.toList.length) = r.drop name.toList.length := by
        rw [← List.drop_drop, hrest]
      have hstop : q + (name.toList.length + 1) = q + 1 + name.toList.length := by omega
      rw [hget, Option.any_some, tagStartRead?, show "<".toList.length = 1 from rfl]
      cases c == '<' with
      | false => rfl
      | true =>
          cases hspelled : t.spelledAt name.toList (q + 1) with
          | false =>
              rw [Text.spelledAt, hrest] at hspelled
              rw [hspelled]
              rfl
          | true =>
              have hbefore := Text.isWord_before_of_spelledAt hname.1 hname.2 hspelled
              rw [if_pos rfl, if_pos rfl, run_wordEdge_place hbefore, ← List.head?_drop, hdrop]
              rw [Text.spelledAt, hrest] at hspelled
              rw [hspelled]
              cases (r.drop name.toList.length).head?.any Text.isWord <;> simp [hstop]

/-- Nothing starts where there is no opening bracket. -/
theorem firstStop_tagStartRead?_of_notMem {part : Text} (h : '<' ∉ part) (name : Text) (k : ℕ)
    (r : Text) :
    Text.firstStop (tagStartRead? name) k (part ++ r) =
      Text.firstStop (tagStartRead? name) (k + part.length) r := by
  refine Text.firstStop_append_of_forall (fun c hc s => ?_) r
  have hne : c ≠ '<' := fun heq => h (heq ▸ hc)
  simp [tagStartRead?, hne]

theorem isSome_tagStartRead?_tag {name : Text} (hname : name.all Char.isAlphanum) (u : Tag)
    (r : Text) : (tagStartRead? name (u.text ++ r)).isSome = u.isNamed name := by
  have hnamed : (Text.startsLike name (u.body ++ '>' :: r) &&
      !((u.body ++ '>' :: r).drop name.length).head?.any Text.isWord) = u.isNamed name :=
    Text.startsLike_nameEnd hname (fun c => !c.any Text.isWord) (fun _ => rfl) u.body r
  have htext : u.text ++ r = '<' :: (u.body ++ '>' :: r) := by simp [Tag.text]
  rw [htext, tagStartRead?, hnamed]
  cases u.isNamed name <;> rfl

/-- Somewhere in pieces the start of an opening tag can be read just if one of them is such a
tag. -/
theorem isSome_firstStop_render {name : Text} (hname : name.all Char.isAlphanum) (k : ℕ)
    (pieces : List Piece) :
    (Text.firstStop (tagStartRead? name) k (render pieces)).isSome =
      pieces.any (Piece.isTag (·.isNamed name)) := by
  induction pieces generalizing k with
  | nil => rfl
  | cons x pieces ih =>
      rw [render_cons, List.any_cons]
      cases x with
      | plain t ht =>
          rw [Piece.text, firstStop_tagStartRead?_of_notMem ht, ih]
          rfl
      | tag u =>
          have htext : u.text ++ render pieces = '<' :: ((u.body ++ ['>']) ++ render pieces) := by
            simp [Tag.text]
          have hinside : '<' ∉ u.body ++ ['>'] := by simp [u.opening_notMem]
          rw [Piece.text, Piece.isTag, ← isSome_tagStartRead?_tag hname u (render pieces), htext,
            Text.firstStop, Option.isSome_or, Option.isSome_map,
            firstStop_tagStartRead?_of_notMem hinside, ih]

theorem containsTag_render {name : String} (hname : Pattern.IsName name) (pieces : List Piece) :
    containsTag (render pieces) name = pieces.any (Piece.isTag (·.isNamed name.toList)) := by
  rw [containsTag, (reads_tagStart hname).occursIn, isSome_firstStop_render hname.2]

theorem beforeLastClosing?_append {z : Text} (hz : '<' ∉ z) (w : Text) :
    beforeLastClosing? (w ++ '<' :: '/' :: z) = some w := by
  have hnone : beforeLastClosing? z = none := by
    induction z with
    | nil => rfl
    | cons c z ih =>
        rw [List.mem_cons, not_or] at hz
        simp [beforeLastClosing?, ih hz.2, Ne.symm hz.1]
  induction w with
  | nil => simp [beforeLastClosing?, hnone]
  | cons c w ih => simp [beforeLastClosing?, ih]

/-- Behind the first closing bracket the body reaches to the last `</`. -/
theorem elementBody_bracket {w : Text} (hw : '>' ∉ w) (r : Text) :
    elementBody (w ++ '>' :: r) = (beforeLastClosing? r).getD r := by
  have hpass : ∀ c ∈ w, (c != '>') = true := by
    intro c hc
    simpa using ne_of_mem_of_not_mem hc hw
  rw [elementBody, List.dropWhile_append_of_pos hpass]
  rfl

theorem elementBody_append (u : Tag) (r : Text) :
    elementBody (u.text ++ r) = (beforeLastClosing? r).getD r := by
  have hbody : '>' ∉ '<' :: u.body := by simpa using u.closing_notMem
  simpa [Tag.text] using elementBody_bracket hbody r

/-- The body of an element has all its pieces but the closing tag. -/
theorem elementBody_of_elementTakes {name : Text} {u : Tag} {after : List Piece} {k : ℕ}
    (h : elementTakes name u after = some k) :
    elementBody (u.text ++ render (after.take k)) = render (after.take (k - 1)) := by
  obtain ⟨-, hk⟩ := Option.ite_none_right_eq_some.mp h
  rw [elementBody_append]
  cases hfound : after.findIdx? (Piece.isTag (·.closes name)) with
  | none =>
      rw [hfound, Option.some.injEq] at hk
      obtain rfl : 0 = k := hk
      rfl
  | some j =>
      rw [hfound, Option.some.injEq] at hk
      obtain rfl : j + 1 = k := hk
      obtain ⟨hj, hcloses, -⟩ := List.findIdx?_eq_some_iff_getElem.mp hfound
      cases hpiece : after[j] with
      | plain t ht =>
          rw [hpiece] at hcloses
          cases hcloses
      | tag v =>
          rw [hpiece, Piece.isTag, Tag.closes, Bool.and_eq_true, Bool.and_eq_true,
            beq_iff_eq] at hcloses
          obtain ⟨z, hbody⟩ := List.head?_eq_some_iff.mp hcloses.1.1
          have hz : '<' ∉ z ++ ['>'] := by
            have := v.opening_notMem
            rw [hbody] at this
            simp_all
          have htake : render (after.take (j + 1)) =
              render (after.take j) ++ '<' :: '/' :: (z ++ ['>']) := by
            rw [← List.take_append_getElem hj, hpiece, render_append]
            simp [Piece.text, Tag.text, hbody]
          rw [htake, beforeLastClosing?_append hz]
          rfl

section Amend

variable {change : ℕ → Tag → Tag} (hchange : ∀ (q : ℕ) (u : Tag), u.Amended (change q u))

include hchange

/-- An element of amended tags covers the same pieces. -/
theorem elementTakes_amend {u u' : Tag} (h : u.Amended u') (name : Text) (q : ℕ)
    (after : List Piece) :
    elementTakes name u' (amend change q after) = elementTakes name u after := by
  rw [elementTakes, elementTakes, h.isNamed_eq,
    findIdx?_amend hchange fun hamended => hamended.closes_eq name]

theorem containsTag_amend {name : String} (hname : Pattern.IsName name) (q : ℕ)
    (pieces : List Piece) :
    containsTag (render (amend change q pieces)) name = containsTag (render pieces) name := by
  rw [containsTag_render hname, containsTag_render hname,
    any_amend hchange fun hamended => hamended.isNamed_eq name.toList]

end Amend

end Markup

end MarkupAudit
