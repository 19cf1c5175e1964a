import AbstractSql.Proofs.Predicate.Conjunction
import Mathlib

/-!
# Rows that are required together

Rows that are required one after the other end up with an AND between each two. Only the first row
can be put in parentheses, and only where it is known to have an alternative. So an alternative of
any other row takes in what stands beside it, and here is exactly when all rows together keep their
meaning.
-/

namespace AbstractSql

namespace Lexeme

variable {α : Type} {v : α → Bool} {row first second : List (Lexeme α)}
  {rows : List (List (Lexeme α))} {hasOr : Bool}

namespace IsSum

/-- A row does not hold where all its atoms are false. -/
theorem not_admits (h : IsSum row) (hn : row ≠ []) (hv : ∀ a, atom a ∈ row → v a = false) :
    ¬ Admits v row := by
  obtain ⟨terms, hterms, rfl⟩ := h
  have hterms' : terms ≠ [] := by
    rintro rfl
    exact hn rfl
  obtain ⟨b, hb, -⟩ := read_connect_or hterms hterms' v
  rw [Admits, hb, operand_of_forall _ hv rfl (by simp) hb]
  simp [hn]

/-- A row with an alternative behind an AND holds with its second alternative. -/
theorem admits_and_right (hf : IsSum first) (hs : IsSum second) (hn : first ≠ [])
    (ha : alternates 0 second = true) (hv : ∀ a, atom a ∈ second → v a = true) :
    Admits v (first ++ connector .and :: second) := by
  have hx : second ≠ [] := by
    rintro rfl
    exact absurd ha (by simp [alternates])
  obtain ⟨before, last, next, after, rfl, rfl, hb, hothers, hboth⟩ := hf.exists_terms hs hn hx
  rw [alternates_connect_or hothers] at ha
  obtain ⟨other, rest, rfl⟩ := List.exists_cons_of_ne_nil (l := after) (by rintro rfl; simp at ha)
  have hother : Admits v other := by
    refine (of_term (hothers other (by simp))).admits_of_forall fun a hm => hv a ?_
    exact atom_mem_connect.mpr ⟨other, by simp, hm⟩
  rw [hboth, admits_connect_or (forall_terms hb hothers)]
  exact .inr ⟨other, by simp, hother⟩

/-- A row with an alternative in front of an AND holds with its first alternative. -/
theorem admits_and_left (hf : IsSum first) (hs : IsSum second) (hn : second ≠ [])
    (ha : alternates 0 first = true) (hv : ∀ a, atom a ∈ first → v a = true) :
    Admits v (first ++ connector .and :: second) := by
  have hx : first ≠ [] := by
    rintro rfl
    exact absurd ha (by simp [alternates])
  obtain ⟨before, last, next, after, rfl, rfl, hb, hothers, hboth⟩ := hf.exists_terms hs hx hn
  rw [alternates_connect_or hb] at ha
  obtain ⟨other, rest, rfl⟩ := List.exists_cons_of_ne_nil (l := before) (by rintro rfl; simp at ha)
  have hother : Admits v other := by
    refine (of_term (hb other (by simp))).admits_of_forall fun a hm => hv a ?_
    exact atom_mem_connect.mpr ⟨other, by simp, hm⟩
  rw [hboth, admits_connect_or (forall_terms hb hothers)]
  exact .inr ⟨other, by simp, hother⟩

/-- Rows with an AND between each two are a row, with an alternative where one of them has one. -/
theorem connect_and (h : ∀ row ∈ rows, IsSum row ∧ row ≠ []) :
    IsSum (connect .and rows) ∧
      alternates 0 (connect .and rows) = rows.any (alternates 0) := by
  induction rows with
  | nil => exact ⟨.nil, rfl⟩
  | cons row rest ih =>
    obtain ⟨⟨hrow, hn⟩, hothers⟩ := List.forall_mem_cons.mp h
    obtain ⟨hrest, halternates⟩ := ih hothers
    by_cases hr : rest = []
    · subst hr
      exact ⟨hrow, by simp [connect]⟩
    · have hx : connect .and rest ≠ [] := fun he =>
        hr ((connect_eq_nil fun r hm => (hothers r hm).2).mp he)
      rw [connect_cons .and row hr]
      refine ⟨hrow.and hrest hn hx, ?_⟩
      rw [hrow.balanced, alternates_cons, halternates, List.any_cons, beq_self_eq_true,
        Bool.true_and, Bool.true_and]
      rfl

end IsSum

/-- Two rows have no atom in common. -/
def Apart (first second : List (Lexeme α)) : Prop := ∀ a, atom a ∈ first → atom a ∉ second

/-- Rows with an AND between each two do not mean all of them, if there are several and one of them
has an alternative. -/
theorem not_conjunction {before after : List (List (Lexeme α))}
    (h : ∀ other ∈ before ++ row :: after, IsSum other ∧ other ≠ [])
    (hd : (before ++ row :: after).Pairwise Apart) (ha : alternates 0 row = true)
    (hn : before ≠ [] ∨ after ≠ []) :
    ¬ ∀ v, Admits v (connect .and (before ++ row :: after)) ↔
      ∀ other ∈ before ++ row :: after, Admits v other := by
  classical
  intro hall
  obtain ⟨hb, hrows⟩ := List.forall_mem_append.mp h
  obtain ⟨⟨hrow, hne⟩, hafter⟩ := List.forall_mem_cons.mp hrows
  obtain ⟨-, hpairs, hacross⟩ := List.pairwise_append.mp hd
  by_cases hfirst : before = []
  · -- The row holds with all of its atoms and none of the others, and the row after it does not.
    subst hfirst
    have hlast : after ≠ [] := hn.resolve_left fun hn => hn rfl
    obtain ⟨other, rest, rfl⟩ := List.exists_cons_of_ne_nil hlast
    obtain ⟨hother, hno⟩ := hafter other List.mem_cons_self
    have hapart : Apart row other := (List.pairwise_cons.mp hpairs).1 other List.mem_cons_self
    have hrest : connect .and (other :: rest) ≠ [] := fun he =>
      absurd ((connect_eq_nil fun r hm => (hafter r hm).2).mp he) hlast
    have hadmits : Admits (fun a => decide (atom a ∈ row))
        (connect .and (row :: other :: rest)) :=
      hrow.admits_and_left (IsSum.connect_and hafter).1 hrest ha fun a hm => decide_eq_true hm
    exact hother.not_admits hno (fun a hm => decide_eq_false fun hin => hapart a hin hm)
      ((hall _).mp hadmits other (by simp))
  · -- The row and those after it hold with all of their atoms, and the rows before it do not.
    obtain ⟨other, rest, rfl⟩ := List.exists_cons_of_ne_nil hfirst
    obtain ⟨hother, hno⟩ := hb other List.mem_cons_self
    obtain ⟨hback, halternates⟩ := IsSum.connect_and hrows
    have hfront : connect .and (other :: rest) ≠ [] := fun he =>
      absurd ((connect_eq_nil fun r hm => (hb r hm).2).mp he) hfirst
    have hadmits : Admits (fun a => decide (atom a ∈ connect .and (row :: after)))
        (connect .and ((other :: rest) ++ row :: after)) := by
      rw [connect_append .and hfirst (by simp)]
      exact (IsSum.connect_and hb).1.admits_and_right hback hfront
        (by rw [halternates, List.any_cons, ha, Bool.true_or]) fun a hm => decide_eq_true hm
    refine hother.not_admits hno (fun a hm => decide_eq_false fun hin => ?_)
      ((hall _).mp hadmits other (by simp))
    obtain ⟨r, hr, ha⟩ := atom_mem_connect.mp hin
    exact hacross other List.mem_cons_self r hr a hm ha

/-- Rows with an AND between each two mean all of them only if there are not several, or none of
them has an alternative. -/
theorem alternates_of_conjunction (h : ∀ row ∈ rows, IsSum row ∧ row ≠ [])
    (hd : rows.Pairwise Apart)
    (hall : ∀ v, Admits v (connect .and rows) ↔ ∀ row ∈ rows, Admits v row) :
    rows.length ≤ 1 ∨ ∀ row ∈ rows, alternates 0 row = false := by
  by_contra hnot
  obtain ⟨hseveral, hflat⟩ := not_or.mp hnot
  obtain ⟨row, hrow, ha⟩ : ∃ row ∈ rows, alternates 0 row = true := by simpa using hflat
  obtain ⟨before, after, rfl⟩ := List.append_of_mem hrow
  refine not_conjunction h hd ha ?_ hall
  by_contra hnone
  obtain ⟨hb, ha⟩ := not_or.mp hnone
  exact hseveral (by simp [not_not.mp hb, not_not.mp ha])

/-- Then they mean all of them. -/
theorem admits_connect_and (h : ∀ row ∈ rows, IsSum row ∧ row ≠ [])
    (hc : rows.length ≤ 1 ∨ ∀ row ∈ rows, alternates 0 row = false) (v : α → Bool) :
    Admits v (connect .and rows) ↔ ∀ row ∈ rows, Admits v row := by
  by_cases hn : rows = []
  · subst hn
    exact iff_of_true (.inl rfl) (by simp)
  rcases hc with hone | hflat
  · match rows, hn, hone with
    | [row], _, _ => simp [connect]
  · exact (IsTerm.connect (fun row hrow => (h row hrow).1.isTerm (hflat row hrow) (h row hrow).2)
      hn).2 v

/-- Rows are required one list after the other. -/
theorem requireAll_append {others : List (List (Lexeme α))} :
    requireAll hasOr row (rows ++ others) =
      requireAll (hasOr && rows.all List.isEmpty) (requireAll hasOr row rows) others := by
  induction rows generalizing hasOr row with
  | nil => simp [requireAll]
  | cons extra rest ih => simp [requireAll, ih, Bool.and_assoc]

/-- A row in front of an AND: it is put in parentheses where it is known to have an alternative. -/
def guarded (hasOr : Bool) (row : List (Lexeme α)) : List (Lexeme α) :=
  if hasOr then enclose row else row

/-- Parentheses alone are not written. -/
theorem isEmpty_guarded : (guarded hasOr row).isEmpty = row.isEmpty := by
  cases hasOr <;> cases row <;> rfl

@[simp] theorem atom_mem_guarded {a : α} : atom a ∈ guarded hasOr row ↔ atom a ∈ row := by
  cases hasOr <;> simp [guarded]

/-- In front of an AND a row keeps its meaning. It has an alternative if it has one that is not
known. -/
theorem IsSum.guarded (h : IsSum row) (hasOr : Bool) : IsSum (guarded hasOr row) ∧
    (∀ v, Admits v (guarded hasOr row) ↔ Admits v row) ∧
      (alternates 0 (guarded hasOr row) = false ↔ (alternates 0 row = true → hasOr = true)) := by
  cases hasOr with
  | false => exact ⟨h, fun _ => .rfl, by simp [Lexeme.guarded]⟩
  | true =>
    by_cases hn : row = []
    · subst hn
      exact ⟨.nil, fun _ => .rfl, by simp [Lexeme.guarded, Lexeme.enclose, alternates]⟩
    · obtain ⟨hterm, hadmits⟩ := h.enclose hn
      exact ⟨.of_term hterm, hadmits, by simp [Lexeme.guarded, hterm.flat.alternates_eq_false]⟩

/-- The rows of a row and others that are required with it that are written: those that are not
empty. -/
def written (hasOr : Bool) (row : List (Lexeme α)) (rows : List (List (Lexeme α))) :
    List (List (Lexeme α)) :=
  ((if rows.all List.isEmpty then row else guarded hasOr row) :: rows).filter (!·.isEmpty)

/-- Rows that are required one after the other are written with an AND between each two. -/
theorem requireAll_eq_connect :
    requireAll hasOr row rows = connect .and (written hasOr row rows) := by
  induction rows generalizing hasOr row with
  | nil => cases row <;> rfl
  | cons extra rest ih =>
    rw [requireAll, ih]
    cases extra with
    | nil =>
      have hskip : written hasOr row ([] :: rest) = written hasOr row rest := by
        simp only [written, List.all_cons, List.isEmpty_nil, Bool.true_and, List.filter_cons,
          Bool.not_true, Bool.false_eq_true, if_false]
      rw [hskip, List.isEmpty_nil, Bool.and_true]
      rfl
    | cons lexeme extra =>
      have hbound : ∀ first second (others : List (List (Lexeme α))),
          connect .and ((first ++ connector .and :: second) :: others) =
            connect .and (first :: second :: others) := by
        intro first second others
        cases others <;> simp [connect]
      have hempty : (require hasOr row (lexeme :: extra)).isEmpty = false := by
        cases row <;> cases hasOr <;> simp [require, enclose]
      have hguarded : guarded (hasOr && (lexeme :: extra).isEmpty)
          (require hasOr row (lexeme :: extra)) = require hasOr row (lexeme :: extra) := by
        simp [guarded]
      unfold written
      rw [hguarded, ite_self, List.filter_cons_of_pos (by rw [hempty]; rfl)]
      cases row with
      | nil => simp [require, guarded, enclose]
      | cons first row =>
        have hfirst : (guarded hasOr (first :: row)).isEmpty = false := isEmpty_guarded
        rw [if_neg (by simp), List.filter_cons_of_pos (by rw [hfirst]; rfl),
          List.filter_cons_of_pos (by simp)]
        exact hbound _ _ _

/-- What is written is not empty, and means the row and those required with it. -/
theorem written_admits (hrow : IsSum row) (hrows : ∀ extra ∈ rows, IsSum extra) (hasOr : Bool) :
    (∀ part ∈ written hasOr row rows, IsSum part ∧ part ≠ []) ∧
      ∀ v, (∀ part ∈ written hasOr row rows, Admits v part) ↔
        Admits v row ∧ ∀ extra ∈ rows, Admits v extra := by
  obtain ⟨hguarded, hadmits, -⟩ := hrow.guarded hasOr
  have hfront : IsSum (if rows.all List.isEmpty then row else guarded hasOr row) ∧
      ∀ v, Admits v (if rows.all List.isEmpty then row else guarded hasOr row) ↔
        Admits v row := by
    split
    · exact ⟨hrow, fun _ => .rfl⟩
    · exact ⟨hguarded, hadmits⟩
  refine ⟨fun part hpart => ?_, fun v => ?_⟩
  · obtain ⟨hmem, hne⟩ := List.mem_filter.mp hpart
    exact ⟨(List.forall_mem_cons (p := IsSum)).mpr ⟨hfront.1, hrows⟩ part hmem, by simpa using hne⟩
  · have hall : (∀ part ∈ written hasOr row rows, Admits v part) ↔
        ∀ part ∈ (if rows.all List.isEmpty then row else guarded hasOr row) :: rows,
          Admits v part := by
      constructor
      · intro h part hpart
        by_cases hne : part = []
        · exact .inl hne
        · exact h part (List.mem_filter.mpr ⟨hpart, by simpa using hne⟩)
      · exact fun h part hpart => h part (List.mem_of_mem_filter hpart)
    rw [hall, List.forall_mem_cons, hfront.2]

/-- What is known of alternatives: the row has one only if it is known to, and no row that is
required has one. -/
def Unsplit (hasOr : Bool) (row : List (Lexeme α)) (rows : List (List (Lexeme α))) : Prop :=
  (alternates 0 row = true → hasOr = true) ∧ ∀ extra ∈ rows, alternates 0 extra = false

/-- There is at most one condition. -/
def Lone (row : List (Lexeme α)) (rows : List (List (Lexeme α))) : Prop :=
  ((row :: rows).filter (!·.isEmpty)).length ≤ 1

instance : Decidable (Unsplit hasOr row rows) := inferInstanceAs (Decidable (_ ∧ _))

instance : Decidable (Lone row rows) := inferInstanceAs (Decidable (_ ≤ _))

/-- What becomes of a row and the rows that are required with it. -/
structure Conjoins (hasOr : Bool) (row : List (Lexeme α)) (rows : List (List (Lexeme α))) :
    Prop where
  /-- They mean all of them where no alternative is overlooked or nothing stands beside it. -/
  means : Unsplit hasOr row rows ∨ Lone row rows → ∀ v,
    Admits v (requireAll hasOr row rows) ↔ Admits v row ∧ ∀ extra ∈ rows, Admits v extra
  /-- Elsewhere they do not, if no atom occurs in two of them. -/
  splits : (row :: rows).Pairwise Apart →
    (∀ v, Admits v (requireAll hasOr row rows) ↔ Admits v row ∧ ∀ extra ∈ rows, Admits v extra) →
      Unsplit hasOr row rows ∨ Lone row rows
  /-- An alternative of the whole is known of exactly where none is overlooked. -/
  knows : (alternates 0 (requireAll hasOr row rows) = true →
    (hasOr && rows.all List.isEmpty) = true) ↔ Unsplit hasOr row rows

/-- As many rows are written as are not empty. -/
theorem written_length : (written hasOr row rows).length ≤ 1 ↔ Lone row rows := by
  have hfront : (if rows.all List.isEmpty then row else guarded hasOr row).isEmpty = row.isEmpty := by
    split
    · rfl
    · exact isEmpty_guarded
  unfold Lone written
  rw [List.filter_cons, List.filter_cons, hfront]
  split <;> rfl

/-- Where another row is written, an alternative is written exactly if one is overlooked. -/
theorem written_alternates (hrow : IsSum row) (hx : rows.all List.isEmpty = false) :
    (∀ part ∈ written hasOr row rows, alternates 0 part = false) ↔ Unsplit hasOr row rows := by
  have hall : (∀ part ∈ written hasOr row rows, alternates 0 part = false) ↔
      ∀ part ∈ guarded hasOr row :: rows, alternates 0 part = false := by
    unfold written
    rw [hx]
    constructor
    · intro h part hpart
      by_cases hne : part = []
      · exact hne ▸ rfl
      · exact h part (List.mem_filter.mpr ⟨hpart, by simpa using hne⟩)
    · exact fun h part hpart => h part (List.mem_of_mem_filter hpart)
  rw [hall, List.forall_mem_cons, (hrow.guarded hasOr).2.2]
  rfl

/-- Rows without a common atom have none when they are written. -/
theorem written_apart (hd : (row :: rows).Pairwise Apart) :
    (written hasOr row rows).Pairwise Apart := by
  obtain ⟨hfirst, hrest⟩ := List.pairwise_cons.mp hd
  refine List.Pairwise.filter _ (List.pairwise_cons.mpr ⟨fun other ho a ha => ?_, hrest⟩)
  refine hfirst other ho a ?_
  split at ha
  · exact ha
  · exact atom_mem_guarded.mp ha

/-- Rows that are required together. -/
theorem conjoins (hrow : IsSum row) (hrows : ∀ extra ∈ rows, IsSum extra) (hasOr : Bool) :
    Conjoins hasOr row rows := by
  obtain ⟨hsums, hadmits⟩ := written_admits hrow hrows hasOr
  cases hx : rows.all List.isEmpty with
  | true =>
    have hempty : ∀ extra ∈ rows, extra = [] := by simpa using hx
    have hself : requireAll hasOr row rows = row := requireAll_eq_self.mpr hempty
    have hlone : Lone row rows := by
      have hnone : rows.filter (!·.isEmpty) = [] := by simpa using hempty
      unfold Lone
      rw [List.filter_cons, hnone]
      split <;> simp
    refine ⟨fun _ v => ?_, fun _ _ => .inr hlone, ?_⟩
    · rw [hself]
      exact (and_iff_left fun extra he => .inl (hempty extra he)).symm
    · rw [hself, hx, Bool.and_true]
      exact (and_iff_left fun extra he => hempty extra he ▸ rfl).symm
  | false =>
    have hcases : ((written hasOr row rows).length ≤ 1 ∨
        ∀ part ∈ written hasOr row rows, alternates 0 part = false) ↔
          Unsplit hasOr row rows ∨ Lone row rows := by
      rw [written_length, written_alternates hrow hx, or_comm]
    refine ⟨fun hc v => ?_, fun hd hall => ?_, ?_⟩
    · rw [requireAll_eq_connect, admits_connect_and hsums (hcases.mpr hc), hadmits]
    · refine hcases.mp (alternates_of_conjunction hsums (written_apart hd) fun v => ?_)
      rw [← requireAll_eq_connect, hall, hadmits]
    · rw [hx, Bool.and_false, requireAll_eq_connect, (IsSum.connect_and hsums).2,
        ← written_alternates hrow hx]
      simp

end Lexeme

end AbstractSql
