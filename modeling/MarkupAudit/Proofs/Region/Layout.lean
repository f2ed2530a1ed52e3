import MarkupAudit.Proofs.Markup.Layout
import MarkupAudit.Proofs.Region.Idempotence

/-! # Regions of a text in pieces

A region starts at a tag, or as a comment in the unclosed rest. Whether a tag starts one can be told
from the tag alone. -/

namespace MarkupAudit

open Markup

/-- Whether a tag starts a comment or is one of an element that is a region as a whole. -/
def Markup.Tag.opensRegion (u : Tag) : Bool :=
  "!--".toList.isPrefixOf u.body || (u.isNamed "script".toList || u.isNamed "style".toList)

namespace Region

section TagAt

variable {t : Text} {q : ℕ} {u : Tag} (hu : t.standsAt u.text q)

include hu

theorem standsAt_comment_tag :
    t.standsAt "<!--".toList q = "!--".toList.isPrefixOf u.body := by
  obtain ⟨r, hr⟩ := List.isPrefixOf_iff_prefix.mp hu
  rw [Text.standsAt, ← hr, Tag.text]
  rcases u.body with _ | ⟨a, _ | ⟨b, _ | ⟨c, body⟩⟩⟩ <;> simp [List.isPrefixOf]

theorem isSome_elementStop?_tag {name : String} (hname : Pattern.IsName name) :
    (elementStop? t name.toList q).isSome = u.isNamed name.toList := by
  obtain ⟨r, hr⟩ := List.isPrefixOf_iff_prefix.mp hu
  have hdrop : t.drop (q + 1) = u.body ++ '>' :: r := by
    rw [← List.drop_drop, ← hr]
    simp [Tag.text]
  have hnamed : (t.spelledAt name.toList (q + 1) &&
      t[q + 1 + name.toList.length]?.any (!Text.isWord ·)) = u.isNamed name.toList := by
    rw [Text.spelledAt, hdrop, ← List.head?_drop, ← List.drop_drop, hdrop]
    exact Text.startsLike_nameEnd hname.2 (·.any (!Text.isWord ·)) (fun _ => rfl) u.body r
  rw [elementStop?, Text.opens_of_standsAt hu, Bool.true_and, hnamed]
  cases h : u.isNamed name.toList with
  | false => rfl
  | true =>
      rw [Nat.add_assoc, Text.least?_bracket_of_tag hu (u.length_lt_of_isNamed h)]
      rfl

theorem isSome_stopAt?_tag : (stopAt? t q).isSome = u.opensRegion := by
  rw [isSome_stopAt?, standsAt_comment_tag hu, isSome_elementStop?_tag hu (by decide),
    isSome_elementStop?_tag hu (by decide), Tag.opensRegion]

end TagAt

/-- Behind an unclosed bracket, only a comment can start. -/
theorem isSome_stopAt?_of_notMem {t : Text} {q : ℕ} (hq : '>' ∉ t.drop q) :
    (stopAt? t q).isSome = t.standsAt "<!--".toList q := by
  have helement : ∀ name, (elementStop? t name q).isSome = false := by
    intro name
    rw [elementStop?, Text.least?_bracket_of_notMem hq (by omega)]
    simp
  rw [isSome_stopAt?, helement, helement, Bool.or_false, Bool.or_false]

/-- A text in pieces has no regions just if no tag starts one and no comment starts in the unclosed
rest. -/
theorem all_layout_eq_nil_iff (d : Layout) :
    all d.text = [] ↔ (∀ u, .tag u ∈ d.pieces → u.opensRegion = false) ∧
      ∀ q, d.tail.standsAt "<!--".toList q = false := by
  have htail : ∀ q, (render d.pieces).length ≤ q → (stopAt? d.text q).isSome =
      d.tail.standsAt "<!--".toList (q - (render d.pieces).length) := by
    intro q hq
    have hdrop := d.drop_of_le hq
    rw [isSome_stopAt?_of_notMem, Text.standsAt, hdrop, Text.standsAt]
    rw [hdrop]
    exact fun hmem => d.closing_notMem (List.mem_of_mem_drop hmem)
  rw [all_eq_nil_iff]
  constructor
  · intro hnone
    constructor
    · intro u hu
      obtain ⟨before, after, hpieces⟩ := List.append_of_mem hu
      rw [← isSome_stopAt?_tag (Layout.standsAt_tag hpieces), hnone]
      rfl
    · intro q
      have := htail ((render d.pieces).length + q) (Nat.le_add_right _ _)
      rw [hnone, Nat.add_sub_cancel_left] at this
      exact this.symm
  · rintro ⟨htags, hcomments⟩ q
    by_contra hne
    obtain ⟨e, he⟩ := Option.ne_none_iff_exists'.mp hne
    have hsome : (stopAt? d.text q).isSome := Option.isSome_iff_ne_none.mpr hne
    obtain ⟨before, u, after, hpieces, rfl⟩ | hle := exists_tag_or_le (opens_of_stopAt? he)
    · rw [isSome_stopAt?_tag (Layout.standsAt_tag hpieces), htags u (by simp [hpieces])] at hsome
      cases hsome
    · rw [htail q hle, hcomments] at hsome
      cases hsome

end Region

end MarkupAudit
