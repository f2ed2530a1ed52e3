import MarkupAudit.Proofs.Edit.Resolution
import MarkupAudit.Proofs.Markup.Insertion

/-! # Repairs that insert behind a name

What a rule with a repair finds starts with a bracket and a name. All repairs but that of the page's
language put an attribute right behind the name or do nothing, so several of them together put
attributes there, one before the other. -/

namespace MarkupAudit

open Markup Pattern Cursor

/-! ## Patterns that start with a name -/

namespace Pattern

/-- A match of the pattern starts with a bracket and one of the names. -/
def StartsWithName (p : Pattern) (names : List String) : Prop :=
  ∃ rest : Pattern, ∀ here next, p.run here next =
    (word "<").run here fun there =>
      (anyOf (names.map word)).run there fun there => rest.run there next

theorem exists_name_of_run_anyOf {names : List String} (hne : names ≠ []) {t held : Text} {q : ℕ}
    {next : Cursor → Option Cursor} {there : Cursor}
    (h : (anyOf (names.map word)).run (place t q held) next = some there) :
    ∃ name ∈ names, t.spelledAt name.toList q ∧
      next (place t (q + name.toList.length) held) = some there := by
  have hword : ∀ {name : String}, (word name).run (place t q held) next = some there →
      t.spelledAt name.toList q ∧ next (place t (q + name.toList.length) held) = some there := by
    intro name hname
    rw [run_word_place] at hname
    exact Option.ite_none_right_eq_some.mp hname
  induction names with
  | nil => exact absurd rfl hne
  | cons name names ih =>
      cases names with
      | nil => exact ⟨name, by simp, hword h⟩
      | cons name' names =>
          have hor : ((word name).run (place t q held) next).or
              ((anyOf ((name' :: names).map word)).run (place t q held) next) = some there :=
            (run_orElse _ _ (place t q held) next).symm.trans h
          rcases Option.or_eq_some_iff.mp hor with hfirst | ⟨-, hlater⟩
          · exact ⟨name, by simp, hword hfirst⟩
          · obtain ⟨found, hmem, hfound⟩ := ih (by simp) hlater
            exact ⟨found, List.mem_cons_of_mem _ hmem, hfound⟩

namespace StartsWithName

variable {p : Pattern} {names : List String} (h : p.StartsWithName names) (hne : names ≠ [])
  (hnames : ∀ name ∈ names, IsName name) {t : Text}

include h hne hnames

theorem exists_name {held : Text} {q : ℕ} {next : Cursor → Option Cursor} {there : Cursor}
    (hrun : p.run (place t q held) next = some there) :
    t.standsAt ['<'] q ∧ ∃ name ∈ names, t.spelledAt name.toList (q + 1) ∧
      ∃ k held', q + 1 < k ∧ k ≤ t.length ∧ next (place t k held') = some there := by
  obtain ⟨rest, hrest⟩ := h
  rw [hrest, run_word_of_isMark (by decide)] at hrun
  obtain ⟨hstands, hrun⟩ := Option.ite_none_right_eq_some.mp hrun
  obtain ⟨name, hname, hspelled, hrun⟩ := exists_name_of_run_anyOf hne hrun
  have hpos : 0 < name.toList.length := List.length_pos_iff.mpr (hnames name hname).1
  have hlength := Markup.length_le_of_startsLike hspelled
  rw [List.length_drop] at hlength
  obtain ⟨k, held', hle, hk, hnext⟩ := exists_place (by omega) hrun
  have hone : "<".toList.length = 1 := rfl
  exact ⟨hstands, name, hname, hspelled, k, held', by omega, hk, hnext⟩

/-- What stands where a match starts. -/
theorem exists_name_of_mem_all {m : Match} (hm : m ∈ p.all t) :
    t.standsAt ['<'] m.start ∧ (∃ name ∈ names, t.spelledAt name.toList (m.start + 1)) ∧
      m.start + 1 < m.stop ∧ m.stop ≤ t.length := by
  obtain ⟨q, -, next, there, hnext, hrun, rfl⟩ := exists_run_of_mem_all hm
  obtain ⟨hstands, name, hname, hspelled, k, held, hlt, hk, hthere⟩ :=
    h.exists_name hne hnames hrun
  obtain rfl := hnext _ _ hthere
  exact ⟨hstands, ⟨name, hname, hspelled⟩, hlt, hk⟩

/-- No part is matched twice. -/
theorem nodup_all : ((p.all t).map fun m => (m.start, m.stop)).Nodup := by
  have hstop : ∀ {q : ℕ} {m : Match}, p.matchAt? (place t q []) = some m →
      q < m.stop ∧ m.stop ≤ t.length := by
    intro q m hm
    obtain ⟨there, hrun, rfl⟩ := Option.map_eq_some_iff.mp hm
    obtain ⟨-, -, -, -, k, held, hlt, hk, hthere⟩ := h.exists_name hne hnames hrun
    obtain rfl := Option.some.inj hthere
    exact ⟨Nat.lt_of_succ_lt hlt, hk⟩
  let o : Occurrences t :=
    { stop? := fun q => (p.matchAt? (place t q [])).map (·.stop)
      lt_stop := fun hq => by
        obtain ⟨m, hm, rfl⟩ := Option.map_eq_some_iff.mp hq
        exact (hstop hm).1
      stop_le := fun hq => by
        obtain ⟨m, hm, rfl⟩ := Option.map_eq_some_iff.mp hq
        exact (hstop hm).2 }
  rw [all_eq_scan o fun _ _ => rfl]
  refine (o.scan_pairwise 0).imp_of_mem fun {r s} hr _ hle heq => ?_
  have hlt := o.lt_stop (o.mem_scan hr).2
  rw [heq] at hle hlt
  omega

end StartsWithName

theorem startsWithName_tag (names : List String) : (tag names).StartsWithName names :=
  ⟨wordEdge ++ restOfTag, fun _ _ => rfl⟩

end Pattern

namespace Guideline

theorem startsWithName_pattern {m : Remedy} (hm : m ∈ remedies) :
    m.pattern.StartsWithName m.names := by
  simp only [remedies, completions, List.map_cons, List.map_nil, List.cons_append, List.nil_append,
    List.mem_cons, List.not_mem_nil, or_false] at hm
  rcases hm with rfl | rfl | rfl | rfl | rfl | rfl | rfl | rfl
  · exact startsWithName_tag _
  · exact ⟨wordEdge ++ longest (· != '>') ++ given "type" (word "image") ++ wordEdge ++ restOfTag,
      fun _ _ => rfl⟩
  · exact startsWithName_tag _
  · exact ⟨wordEdge ++ restOfTag ++
      optional (shortest (fun _ => true) ++ closingTag (word "svg")), fun _ _ => rfl⟩
  all_goals exact startsWithName_tag _

theorem names_ne_nil : ∀ m ∈ remedies, m.names ≠ [] := by
  decide +kernel

end Guideline

/-! ## Repairs that insert -/

namespace Markup

/-- The repair puts at most one of the pieces behind the name of a tag, and does nothing to a tag
without a name. -/
structure Inserts (pieces : List Text) (mend : Text → Text) : Prop where
  named : ∀ {u name rest}, NamedTag u name rest →
    mend u = u ∨ ∃ piece ∈ pieces, mend u = '<' :: (name ++ (piece ++ rest))
  nameless : ∀ {u}, tagHead? u = none → mend u = u

theorem inserts_insertAttribute {pieces : List Text} {name : Text} {value : Option Text}
    (h : ' ' :: writeAttribute name value ∈ pieces) : Inserts pieces (insertAttribute name value) where
  named {u name' rest} hu := by
    cases hhas : hasAttribute u name with
    | true => exact .inl (insertAttribute_of_hasAttribute hhas)
    | false => exact .inr ⟨_, h, hu.insertAttribute_eq hhas value⟩
  nameless {u} hu := by
    rw [insertAttribute, hu]
    exact ite_self _

end Markup

namespace MendStep

variable {pieces : List Text} {steps : List MendStep}

/-- Repairs that insert one after the other put pieces behind the name. -/
theorem compose_of_inserts (hpieces : ∀ piece ∈ pieces, piece.head? = some ' ')
    (hsteps : ∀ step ∈ steps, Inserts pieces step.mend) {u name rest : Text}
    (hu : NamedTag u name rest) :
    ∃ inserted : List Text, (∀ piece ∈ inserted, piece ∈ pieces) ∧
      compose u steps = '<' :: (name ++ (inserted.flatten ++ rest)) := by
  induction steps generalizing u rest with
  | nil => exact ⟨[], by simp, hu.eq_append⟩
  | cons step steps ih =>
      obtain ⟨hstep, hrest⟩ := List.forall_mem_cons.mp hsteps
      rw [compose_cons]
      rcases hstep.named hu with hsame | ⟨piece, hpiece, hmend⟩
      · rw [hsame]
        exact ih hrest hu
      · obtain ⟨inserted, hinserted, hcompose⟩ := ih hrest (hu.insert (hpieces piece hpiece))
        refine ⟨inserted ++ [piece], ?_, by rw [hmend, hcompose]; simp⟩
        simpa [or_imp, forall_and, hpiece] using hinserted

theorem compose_of_nameless (hsteps : ∀ step ∈ steps, Inserts pieces step.mend) {u : Text}
    (hu : tagHead? u = none) : compose u steps = u := by
  induction steps with
  | nil => rfl
  | cons step steps ih =>
      obtain ⟨hstep, hrest⟩ := List.forall_mem_cons.mp hsteps
      rw [compose_cons, hstep.nameless hu, ih hrest]

end MendStep

namespace Guideline

/-- What repairs put behind the name of a tag. -/
def pieces : List Text :=
  [" alt=\"\"", " alt=\"Submit\"", " alt=\"Link\"", " aria-hidden=\"true\"",
    " title=\"Embedded content\"", " controls"].map String.toList

theorem head?_of_mem_pieces : ∀ piece ∈ pieces, piece.head? = some ' ' := by
  decide

theorem inserts_addControls : Inserts pieces Keyboard.addControls := by
  have hinserts : Inserts pieces (insertAttribute "controls".toList none) :=
    inserts_insertAttribute (by decide)
  refine ⟨fun {u name rest} hu => ?_, fun {u} hu => ?_⟩
  · rw [Keyboard.addControls]
    split
    · exact .inl rfl
    · exact hinserts.named hu
  · rw [Keyboard.addControls, hinserts.nameless hu]
    exact ite_self _

/-- All repairs but one insert. -/
theorem inserts_mend {m : Remedy} (hm : m ∈ remedies) (hid : m.rule.id ≠ "R67") :
    Inserts pieces m.mend := by
  simp only [remedies, completions, List.map_cons, List.map_nil, List.cons_append, List.nil_append,
    List.mem_cons, List.not_mem_nil, or_false] at hm
  rcases hm with rfl | rfl | rfl | rfl | rfl | rfl | rfl | rfl
  · exact inserts_insertAttribute (by decide)
  · exact inserts_insertAttribute (by decide)
  · exact inserts_insertAttribute (by decide)
  · exact inserts_insertAttribute (by decide)
  · exact inserts_insertAttribute (by decide)
  · exact inserts_insertAttribute (by decide)
  · exact inserts_addControls
  · exact absurd rfl hid

end Guideline

end MarkupAudit
