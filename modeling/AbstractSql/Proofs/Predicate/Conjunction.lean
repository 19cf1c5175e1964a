import AbstractSql.Proofs.Predicate.Reading

/-!
# Rows of terms

What is written of a condition is a row of terms with an OR between each two, where a term is read
as one operand of an AND. Rows stay such rows when parts are pushed, enclosed or required. A row
that is put behind an AND as it stands keeps its meaning exactly when it is one term.
-/

namespace AbstractSql

namespace Lexeme

variable {α : Type}

/-- Rows with a connector between each two. -/
def connect (c : Connector) : List (List (Lexeme α)) → List (Lexeme α)
  | [] => []
  | [row] => row
  | row :: other :: rest => row ++ connector c :: connect c (other :: rest)

/-- A row with another one that is required too. The row is put in parentheses when it is known to
have an alternative. -/
def require (hasOr : Bool) (row extra : List (Lexeme α)) : List (Lexeme α) :=
  if extra.isEmpty then row
  else if row.isEmpty then extra
  else (if hasOr then enclose row else row) ++ connector .and :: extra

/-- A row with several others that are required too, one after the other. Once one has been
required, the row is not taken to have an alternative any more. -/
def requireAll (hasOr : Bool) (row : List (Lexeme α)) : List (List (Lexeme α)) → List (Lexeme α)
  | [] => row
  | extra :: rest => requireAll (hasOr && extra.isEmpty) (require hasOr row extra) rest

/-- A row holds: there is nothing to test, or it is read as true. -/
def Admits (v : α → Bool) (row : List (Lexeme α)) : Prop := row = [] ∨ read v row = some true

/-- A row that is read as one operand of an AND. -/
structure IsTerm (row : List (Lexeme α)) : Prop where
  /-- No OR stands outside of its parentheses. -/
  flat : Flat row
  /-- It is read to a value, whatever the atoms stand for. -/
  reads : ∀ v, ∃ b, ReadsAs v row b

/-- Terms with an OR between each two, or nothing. -/
def IsSum (row : List (Lexeme α)) : Prop :=
  ∃ terms, (∀ term ∈ terms, IsTerm term) ∧ row = connect .or terms

/-- An atom of a row with a pushed part is one of them. -/
@[simp] theorem atom_mem_push {a : α} {row part : List (Lexeme α)} {c : Connector} :
    atom a ∈ push row c part ↔ atom a ∈ row ∨ atom a ∈ part := by
  cases row <;> cases part <;> simp [push, or_assoc]

/-- Parentheses hold the same atoms. -/
@[simp] theorem atom_mem_enclose {a : α} {row : List (Lexeme α)} :
    atom a ∈ enclose row ↔ atom a ∈ row := by
  cases row <;> simp [enclose]

/-- An atom of a row with a required one is an atom of one of them. -/
@[simp] theorem atom_mem_require {a : α} {hasOr : Bool} {row extra : List (Lexeme α)} :
    atom a ∈ require hasOr row extra ↔ atom a ∈ row ∨ atom a ∈ extra := by
  unfold require
  cases extra with
  | nil => simp
  | cons => cases row <;> cases hasOr <;> simp [or_assoc]

/-- An atom of a row with several required ones is an atom of one of them. -/
@[simp] theorem atom_mem_requireAll {a : α} {hasOr : Bool} {row : List (Lexeme α)}
    {rows : List (List (Lexeme α))} :
    atom a ∈ requireAll hasOr row rows ↔ atom a ∈ row ∨ ∃ extra ∈ rows, atom a ∈ extra := by
  induction rows generalizing hasOr row with
  | nil => simp [requireAll]
  | cons extra rest ih => simp [requireAll, ih, or_assoc]

/-- A row with another required one is at least as long as both. -/
theorem length_require (hasOr : Bool) (row extra : List (Lexeme α)) :
    row.length + extra.length ≤ (require hasOr row extra).length := by
  cases extra with
  | nil => simp [require]
  | cons =>
    cases row with
    | nil => simp [require]
    | cons => cases hasOr <;> simp [require, enclose] <;> omega

/-- A row with several required ones is at least as long as all of them. -/
theorem length_requireAll (hasOr : Bool) (row : List (Lexeme α)) (rows : List (List (Lexeme α))) :
    row.length + rows.flatten.length ≤ (requireAll hasOr row rows).length := by
  induction rows generalizing hasOr row with
  | nil => simp [requireAll]
  | cons extra rest ih =>
    have hfirst := length_require hasOr row extra
    have hrest := ih (hasOr && extra.isEmpty) (require hasOr row extra)
    rw [requireAll, List.flatten_cons, List.length_append]
    omega

/-- A row stays as it is exactly when the required ones are all empty. -/
theorem requireAll_eq_self {hasOr : Bool} {row : List (Lexeme α)} {rows : List (List (Lexeme α))} :
    requireAll hasOr row rows = row ↔ ∀ extra ∈ rows, extra = [] := by
  constructor
  · intro h
    have hl := length_requireAll hasOr row rows
    rw [h] at hl
    exact List.flatten_eq_nil_iff.mp (List.eq_nil_of_length_eq_zero (by omega))
  · intro h
    induction rows generalizing hasOr with
    | nil => rfl
    | cons extra rest ih =>
      obtain ⟨rfl, hrest⟩ := List.forall_mem_cons.mp h
      exact ih hrest

/-- An atom of connected rows is an atom of one of them. -/
@[simp] theorem atom_mem_connect {a : α} {c : Connector} {rows : List (List (Lexeme α))} :
    atom a ∈ connect c rows ↔ ∃ row ∈ rows, atom a ∈ row := by
  induction rows with
  | nil => simp [connect]
  | cons row rest ih => cases rest <;> simp_all [connect]

/-- Connecting one row more. -/
theorem connect_cons (c : Connector) (row : List (Lexeme α)) {rows : List (List (Lexeme α))}
    (h : rows ≠ []) : connect c (row :: rows) = row ++ connector c :: connect c rows := by
  cases rows with
  | nil => exact absurd rfl h
  | cons other rest => rw [connect]

/-- Connecting rows after others. -/
theorem connect_append (c : Connector) {first second : List (List (Lexeme α))} (hf : first ≠ [])
    (hs : second ≠ []) :
    connect c (first ++ second) = connect c first ++ connector c :: connect c second := by
  induction first with
  | nil => exact absurd rfl hf
  | cons row rest ih =>
    cases rest with
    | nil => rw [List.singleton_append, connect_cons c row hs, connect]
    | cons other rest =>
      rw [List.cons_append, connect_cons c row (by simp), ih (by simp),
        connect_cons c row (by simp), List.append_assoc, List.cons_append]

/-- Rows that are not empty are connected to nothing only if there are none. -/
theorem connect_eq_nil {c : Connector} {rows : List (List (Lexeme α))}
    (h : ∀ row ∈ rows, row ≠ []) : connect c rows = [] ↔ rows = [] := by
  cases rows with
  | nil => simp [connect]
  | cons row rest =>
    have hrow := h row List.mem_cons_self
    cases rest <;> simp [connect, hrow]

/-- What is read as one operand has its value. -/
theorem ReadsAs.read {v : α → Bool} {row : List (Lexeme α)} {b : Bool} (h : ReadsAs v row b) :
    read v row = some b := by
  have hrow := h .start [] []
  rw [List.append_nil] at hrow
  rw [Lexeme.read, hrow]
  rfl

namespace IsTerm

variable {row first second : List (Lexeme α)}

/-- A term is something. -/
theorem ne_nil (h : IsTerm row) : row ≠ [] := by
  rintro rfl
  obtain ⟨b, hb⟩ := h.reads fun _ => true
  have hread := hb.read
  rw [Lexeme.read, operand] at hread
  · exact absurd hread (by simp)
  · simp
  · simp

/-- A term holds exactly when it is read as true. -/
theorem admits_iff (h : IsTerm row) {v : α → Bool} {b : Bool} (hb : ReadsAs v row b) :
    Admits v row ↔ b = true := by
  rw [Admits, hb.read, Option.some.injEq, or_iff_right h.ne_nil]

/-- A term is read as whether it holds. -/
theorem readsAs (h : IsTerm row) (v : α → Bool) :
    ∃ b, ReadsAs v row b ∧ (Admits v row ↔ b = true) := by
  obtain ⟨b, hb⟩ := h.reads v
  exact ⟨b, hb, h.admits_iff hb⟩

/-- An atom is a term. -/
theorem atom (a : α) : IsTerm [Lexeme.atom a] :=
  ⟨fun _ _ => rfl, fun v => ⟨v a, fun _ _ _ => rfl⟩⟩

/-- An atom holds when it is taken to. -/
theorem admits_atom {v : α → Bool} {a : α} : Admits v [Lexeme.atom a] ↔ v a = true :=
  (atom a).admits_iff fun _ _ _ => rfl

/-- Two terms with an AND between them are a term, which holds when both do. -/
theorem and (hf : IsTerm first) (hs : IsTerm second) :
    IsTerm (first ++ connector .and :: second) ∧
      ∀ v, Admits v (first ++ connector .and :: second) ↔ Admits v first ∧ Admits v second := by
  have hreads : ∀ {v a b}, ReadsAs v first a → ReadsAs v second b →
      ReadsAs v (first ++ connector .and :: second) (a && b) := by
    intro v a b ha hb l outer rest
    rw [List.append_assoc, ha, List.cons_append, operator, hb]
    simp only [Level.after, Level.meet, Bool.and_assoc]
  have hterm : IsTerm (first ++ connector .and :: second) := by
    refine ⟨fun depth rest => ?_, fun v => ?_⟩
    · rw [List.append_assoc, hf.flat, List.cons_append, alternates_cons, hs.flat]
      simp
    · obtain ⟨a, ha⟩ := hf.reads v
      obtain ⟨b, hb⟩ := hs.reads v
      exact ⟨_, hreads ha hb⟩
  refine ⟨hterm, fun v => ?_⟩
  obtain ⟨a, ha, hfirst⟩ := hf.readsAs v
  obtain ⟨b, hb, hsecond⟩ := hs.readsAs v
  rw [hterm.admits_iff (hreads ha hb), hfirst, hsecond, Bool.and_eq_true]

/-- Terms with an AND between each two are a term, which holds when all of them do. -/
theorem connect {terms : List (List (Lexeme α))} (h : ∀ term ∈ terms, IsTerm term)
    (hn : terms ≠ []) :
    IsTerm (Lexeme.connect .and terms) ∧
      ∀ v, Admits v (Lexeme.connect .and terms) ↔ ∀ term ∈ terms, Admits v term := by
  induction terms with
  | nil => exact absurd rfl hn
  | cons term rest ih =>
    have hterm := h term List.mem_cons_self
    by_cases hr : rest = []
    · subst hr
      exact ⟨hterm, fun v => by simp [Lexeme.connect]⟩
    · obtain ⟨hrest, hadmits⟩ := ih (fun t ht => h t (List.mem_cons_of_mem _ ht)) hr
      obtain ⟨hboth, hand⟩ := hterm.and hrest
      rw [connect_cons .and term hr]
      exact ⟨hboth, fun v => by rw [hand, hadmits, List.forall_mem_cons]⟩

end IsTerm

/-- Alternatives that are read after others leave a level whose value is whether one of all these
holds. -/
theorem operand_connect_or {v : α → Bool} {terms : List (List (Lexeme α))}
    (h : ∀ term ∈ terms, IsTerm term) (hn : terms ≠ []) (earlier : Bool) :
    ∃ l, (∀ outer rest, operand v ⟨earlier, true⟩ outer (connect .or terms ++ rest) =
        operator v l outer rest) ∧
      (l.value = true ↔ earlier = true ∨ ∃ term ∈ terms, Admits v term) := by
  induction terms generalizing earlier with
  | nil => exact absurd rfl hn
  | cons term rest ih =>
    obtain ⟨b, hb, hterm⟩ := (h term List.mem_cons_self).readsAs v
    by_cases hr : rest = []
    · subst hr
      refine ⟨⟨earlier, b⟩, fun outer rest => ?_, by simp [Level.value, hterm]⟩
      rw [connect, hb]
      simp [Level.meet]
    · obtain ⟨l, hl, hvalue⟩ :=
        ih (fun t ht => h t (List.mem_cons_of_mem _ ht)) hr (earlier || b)
      refine ⟨l, fun outer more => ?_, ?_⟩
      · rw [connect_cons .or term hr, List.append_assoc, hb, List.cons_append, operator, ← hl]
        simp [Level.after, Level.alternative, Level.meet, Level.value]
      · rw [hvalue, Bool.or_eq_true, ← hterm]
        simp only [List.mem_cons, exists_eq_or_imp, or_assoc]

/-- Alternatives hold when one of them does. -/
theorem read_connect_or {terms : List (List (Lexeme α))} (h : ∀ term ∈ terms, IsTerm term)
    (hn : terms ≠ []) (v : α → Bool) :
    ∃ b, read v (connect .or terms) = some b ∧ (b = true ↔ ∃ term ∈ terms, Admits v term) := by
  obtain ⟨l, hl, hvalue⟩ := operand_connect_or (v := v) h hn false
  have hread := hl [] []
  rw [List.append_nil] at hread
  exact ⟨l.value, by rw [read, Level.start, hread]; rfl, by simpa using hvalue⟩

/-- Nothing is required, or one of the alternatives holds. -/
theorem admits_connect_or {terms : List (List (Lexeme α))} (h : ∀ term ∈ terms, IsTerm term)
    (v : α → Bool) :
    Admits v (connect .or terms) ↔ terms = [] ∨ ∃ term ∈ terms, Admits v term := by
  have hnil := connect_eq_nil (c := .or) fun term ht => (h term ht).ne_nil
  by_cases hn : terms = []
  · exact iff_of_true (.inl (hnil.mpr hn)) (.inl hn)
  · obtain ⟨b, hb, hvalue⟩ := read_connect_or h hn v
    rw [Admits, hnil, hb, Option.some.injEq, hvalue]

/-- An OR stands outside of all parentheses exactly when there are several terms. -/
theorem alternates_connect_or {terms : List (List (Lexeme α))} (h : ∀ term ∈ terms, IsTerm term) :
    alternates 0 (connect .or terms) = decide (1 < terms.length) := by
  cases terms with
  | nil => rfl
  | cons term rest =>
    have hterm := h term List.mem_cons_self
    cases rest with
    | nil => rw [connect, hterm.flat.alternates_eq_false]; rfl
    | cons other rest => rw [connect, hterm.flat, alternates_cons]; simp

namespace IsSum

variable {row extra : List (Lexeme α)}

/-- Nothing at all. -/
theorem nil : IsSum ([] : List (Lexeme α)) := ⟨[], by simp, rfl⟩

/-- A term is a row of one term. -/
theorem of_term (h : IsTerm row) : IsSum row := ⟨[row], by simpa using h, rfl⟩

/-- A row without an alternative is nothing, or one term. -/
theorem isTerm (h : IsSum row) (ha : alternates 0 row = false) (hn : row ≠ []) : IsTerm row := by
  obtain ⟨terms, hterms, rfl⟩ := h
  rw [alternates_connect_or hterms] at ha
  match terms, hterms with
  | [], _ => exact absurd rfl hn
  | [term], hterms => exact hterms term (by simp)
  | _ :: _ :: _, _ => simp at ha

/-- An alternative after others. -/
theorem or (h : IsSum row) (hn : row ≠ []) {term : List (Lexeme α)} (ht : IsTerm term) :
    IsSum (row ++ connector .or :: term) := by
  obtain ⟨terms, hterms, rfl⟩ := h
  refine ⟨terms ++ [term], fun t hm => ?_, ?_⟩
  · rcases List.mem_append.mp hm with hm | hm
    · exact hterms t hm
    · exact List.mem_singleton.mp hm ▸ ht
  · rw [connect_append .or (by rintro rfl; exact hn rfl) (by simp)]
    rfl

/-- The AND between two rows binds the last term of the first row to the first term of the second,
and leaves the others as they are. -/
theorem exists_terms (h : IsSum row) (he : IsSum extra) (hn : row ≠ []) (hx : extra ≠ []) :
    ∃ before last next after, row = connect .or (before ++ [last]) ∧
      extra = connect .or (next :: after) ∧ (∀ term ∈ before ++ [last], IsTerm term) ∧
      (∀ term ∈ next :: after, IsTerm term) ∧
      row ++ connector .and :: extra =
        connect .or (before ++ (last ++ connector .and :: next) :: after) := by
  obtain ⟨terms, hterms, rfl⟩ := h
  obtain ⟨others, hothers, rfl⟩ := he
  obtain ⟨before, last, rfl⟩ : ∃ before last, terms = before ++ [last] :=
    ⟨_, _, (List.dropLast_concat_getLast (by rintro rfl; exact hn rfl)).symm⟩
  obtain ⟨next, after, rfl⟩ := List.exists_cons_of_ne_nil (l := others) (by rintro rfl; exact hx rfl)
  refine ⟨before, last, next, after, rfl, rfl, hterms, hothers, ?_⟩
  have hmiddle : connect .or [last] ++ connector .and :: connect .or (next :: after) =
      connect .or ((last ++ connector .and :: next) :: after) := by
    cases after with
    | nil => rfl
    | cons other rest => simp [connect]
  by_cases hb : before = []
  · subst hb
    exact hmiddle
  · rw [connect_append .or hb (by simp), connect_append .or hb (by simp), ← hmiddle]
    simp

/-- Terms stay terms when two of them are bound by an AND. -/
theorem forall_terms {before after : List (List (Lexeme α))} {last next : List (Lexeme α)}
    (hb : ∀ term ∈ before ++ [last], IsTerm term) (ha : ∀ term ∈ next :: after, IsTerm term) :
    ∀ term ∈ before ++ (last ++ connector .and :: next) :: after, IsTerm term := by
  have hbound := (hb last (by simp)).and (ha next List.mem_cons_self)
  refine List.forall_mem_append.mpr ⟨fun t ht => hb t (List.mem_append_left _ ht),
    List.forall_mem_cons.mpr ⟨hbound.1, fun t ht => ha t (List.mem_cons_of_mem _ ht)⟩⟩

/-- Two rows with an AND between them. -/
theorem and (h : IsSum row) (he : IsSum extra) (hn : row ≠ []) (hx : extra ≠ []) :
    IsSum (row ++ connector .and :: extra) := by
  obtain ⟨before, last, next, after, -, -, hb, ha, hboth⟩ := h.exists_terms he hn hx
  exact ⟨_, forall_terms hb ha, hboth⟩

/-- A part that is pushed after others. -/
theorem push (h : IsSum row) {part : List (Lexeme α)} (hp : part = [] ∨ IsTerm part)
    (c : Connector) : IsSum (push row c part) := by
  unfold Lexeme.push
  rcases hp with rfl | hp
  · exact h
  · rw [if_neg (by simpa using hp.ne_nil)]
    split
    · exact of_term hp
    · next hn =>
      rw [List.isEmpty_iff] at hn
      cases c with
      | and => exact h.and (of_term hp) hn hp.ne_nil
      | or => exact h.or hn hp

/-- The parentheses of a row match. -/
protected theorem balanced (h : IsSum row) : Balanced row := by
  obtain ⟨terms, hterms, rfl⟩ := h
  intro depth rest
  induction terms with
  | nil => simp [connect, alternates]
  | cons term others ih =>
    have hterm := hterms term List.mem_cons_self
    by_cases ho : others = []
    · subst ho
      exact hterm.flat.balanced depth rest
    · rw [connect_cons .or term ho, List.append_assoc, hterm.flat, hterm.flat, List.cons_append,
        alternates_cons, alternates_cons, ih fun t ht => hterms t (List.mem_cons_of_mem _ ht)]
      cases depth == 0 <;> simp

/-- What is enclosed is a term, if it is anything. -/
theorem enclose (h : IsSum row) (hn : row ≠ []) :
    IsTerm (enclose row) ∧ ∀ v, Admits v (Lexeme.enclose row) ↔ Admits v row := by
  have hflat := h.balanced.enclose
  obtain ⟨terms, hterms, rfl⟩ := h
  have hne : terms ≠ [] := by
    rintro rfl
    exact hn rfl
  have hreads : ∀ v, ∃ b, ReadsAs v (Lexeme.enclose (connect .or terms)) b ∧
      (b = true ↔ ∃ term ∈ terms, Admits v term) := by
    intro v
    obtain ⟨l, hl, hvalue⟩ := operand_connect_or (v := v) hterms hne false
    exact ⟨l.value, ReadsTo.enclose hl hn, by simpa using hvalue⟩
  have hterm : IsTerm (Lexeme.enclose (connect .or terms)) :=
    ⟨hflat, fun v => (hreads v).imp fun _ h => h.1⟩
  refine ⟨hterm, fun v => ?_⟩
  obtain ⟨b, hb, hvalue⟩ := hreads v
  rw [hterm.admits_iff hb, hvalue, admits_connect_or hterms, or_iff_right hne]

/-- A required row. -/
protected theorem require (h : IsSum row) (he : IsSum extra) (hasOr : Bool) :
    IsSum (require hasOr row extra) := by
  unfold Lexeme.require
  split
  · exact h
  · next hx =>
    split
    · exact he
    · next hn =>
      rw [List.isEmpty_iff] at hx hn
      cases hasOr with
      | false => exact h.and he hn hx
      | true =>
        have henclosed := (h.enclose hn).1
        exact (of_term henclosed).and he henclosed.ne_nil hx

/-- Several required rows. -/
protected theorem requireAll (h : IsSum row) {rows : List (List (Lexeme α))}
    (he : ∀ extra ∈ rows, IsSum extra) (hasOr : Bool) : IsSum (requireAll hasOr row rows) := by
  induction rows generalizing hasOr row with
  | nil => exact h
  | cons extra rest ih =>
    obtain ⟨hextra, hrest⟩ := List.forall_mem_cons.mp he
    exact ih (h.require hextra hasOr) hrest _

end IsSum

/-- A row and one more without an alternative, of which the first one is put in parentheses where it
has an alternative. -/
theorem admits_require {row extra : List (Lexeme α)} (h : IsSum row) (he : IsSum extra)
    (ha : alternates 0 extra = false) :
    (extra ≠ [] → alternates 0 (require (alternates 0 row) row extra) = false) ∧
      ∀ v, Admits v (require (alternates 0 row) row extra) ↔ Admits v row ∧ Admits v extra := by
  by_cases hx : extra = []
  · subst hx
    exact ⟨fun hx => absurd rfl hx, fun v => (and_iff_left (.inl rfl)).symm⟩
  · have hextra := he.isTerm ha hx
    rw [require, if_neg (by simpa using hx)]
    by_cases hn : row = []
    · subst hn
      exact ⟨fun _ => ha, fun v => (and_iff_right (.inl rfl)).symm⟩
    · rw [if_neg (by simpa using hn)]
      cases hrow : alternates 0 row with
      | true =>
        obtain ⟨hterm, hadmits⟩ := h.enclose hn
        obtain ⟨hboth, hiff⟩ := hterm.and hextra
        exact ⟨fun _ => hboth.flat.alternates_eq_false, fun v => (hiff v).trans
          (and_congr_left' (hadmits v))⟩
      | false =>
        obtain ⟨hboth, hiff⟩ := (h.isTerm hrow hn).and hextra
        exact ⟨fun _ => hboth.flat.alternates_eq_false, hiff⟩

/-- A row and several more without alternatives. All of them have to hold. -/
theorem admits_requireAll {row : List (Lexeme α)} {rows : List (List (Lexeme α))} (h : IsSum row)
    (he : ∀ extra ∈ rows, IsSum extra ∧ alternates 0 extra = false) :
    alternates 0 (requireAll (alternates 0 row) row rows) =
        (alternates 0 row && rows.all List.isEmpty) ∧
      ∀ v, Admits v (requireAll (alternates 0 row) row rows) ↔
        Admits v row ∧ ∀ extra ∈ rows, Admits v extra := by
  induction rows generalizing row with
  | nil => simp [requireAll]
  | cons extra rest ih =>
    obtain ⟨⟨hextra, ha⟩, hrest⟩ := List.forall_mem_cons.mp he
    obtain ⟨hflat, hadmits⟩ := admits_require h hextra ha
    have halternates : (alternates 0 row && extra.isEmpty) =
        alternates 0 (require (alternates 0 row) row extra) := by
      by_cases hx : extra = []
      · simp [hx, require]
      · rw [hflat hx]
        simp [hx]
    obtain ⟨hlast, hall⟩ := ih (h.require hextra (alternates 0 row)) hrest
    rw [requireAll, halternates]
    refine ⟨?_, fun v => ?_⟩
    · rw [hlast, ← halternates, List.all_cons, Bool.and_assoc]
    · rw [hall, hadmits, List.forall_mem_cons, and_assoc]

variable {v : α → Bool}

mutual

/-- Where all its atoms have one value, an operand is read as that value. Every level that is open
keeps the value when it meets one more operand of it. -/
theorem operand_of_forall {value : Bool} :
    ∀ (row : List (Lexeme α)), (∀ a, atom a ∈ row → v a = value) →
      ∀ {l : Level} {outer : List Level} {b : Bool}, (l.meet value).value = value →
        (∀ level ∈ outer, (level.meet value).value = value) → operand v l outer row = some b →
          b = value
  | [], _, _, _, _, _, _, h => by simp [operand] at h
  | .atom a :: rest, hv, _, _, _, hl, ho, h => by
    rw [operand, hv a List.mem_cons_self] at h
    exact operator_of_forall rest (fun x hx => hv x (List.mem_cons_of_mem _ hx)) hl ho h
  | .connector _ :: _, _, _, _, _, _, _, h => by simp [operand] at h
  | .opening :: rest, hv, _, _, _, hl, ho, h => by
    rw [operand] at h
    exact operand_of_forall rest (fun x hx => hv x (List.mem_cons_of_mem _ hx)) rfl
      (List.forall_mem_cons.mpr ⟨hl, ho⟩) h
  | .closing :: _, _, _, _, _, _, _, h => by simp [operand] at h

/-- So is what follows an operand. -/
theorem operator_of_forall {value : Bool} :
    ∀ (row : List (Lexeme α)), (∀ a, atom a ∈ row → v a = value) →
      ∀ {l : Level} {outer : List Level} {b : Bool}, l.value = value →
        (∀ level ∈ outer, (level.meet value).value = value) → operator v l outer row = some b →
          b = value
  | [], _, l, outer, b, hl, _, h => by
    rw [operator] at h
    split at h
    · rw [← Option.some.inj h, hl]
    · exact absurd h (by simp)
  | .atom _ :: _, _, _, _, _, _, _, h => by simp [operator] at h
  | .connector c :: rest, hv, l, _, _, hl, ho, h => by
    rw [operator] at h
    refine operand_of_forall rest (fun x hx => hv x (List.mem_cons_of_mem _ hx)) ?_ ho h
    rw [← hl]
    cases c with
    | and => exact l.value_meet_value
    | or => exact l.value_meet_alternative
  | .opening :: _, _, _, _, _, _, _, h => by simp [operator] at h
  | .closing :: rest, hv, l, outer, _, hl, ho, h => by
    match outer, ho, h with
    | [], _, h => simp [operator] at h
    | enclosing :: outer, ho, h =>
      rw [operator, hl] at h
      obtain ⟨he, ho⟩ := List.forall_mem_cons.mp ho
      exact operator_of_forall rest (fun x hx => hv x (List.mem_cons_of_mem _ hx)) he ho h

end

/-- A row holds where all its atoms are true. -/
theorem IsSum.admits_of_forall {row : List (Lexeme α)} (h : IsSum row)
    (hv : ∀ a, atom a ∈ row → v a = true) : Admits v row := by
  obtain ⟨terms, hterms, rfl⟩ := h
  by_cases hn : terms = []
  · exact .inl (by rw [hn, connect])
  · obtain ⟨b, hb, -⟩ := read_connect_or hterms hn v
    refine .inr ?_
    rw [hb, operand_of_forall _ hv rfl (by simp) hb]

/-- What is read as an operand tests something. -/
theorem exists_atom_of_operand {row : List (Lexeme α)} :
    ∀ {l : Level} {outer : List Level} {b : Bool}, operand v l outer row = some b →
      ∃ a, atom a ∈ row := by
  induction row with
  | nil => intro _ _ _ h; simp [operand] at h
  | cons lexeme rest ih =>
    intro l outer b h
    cases lexeme with
    | atom a => exact ⟨a, List.mem_cons_self⟩
    | opening =>
      rw [operand] at h
      obtain ⟨a, ha⟩ := ih h
      exact ⟨a, List.mem_cons_of_mem _ ha⟩
    | connector => simp [operand] at h
    | closing => simp [operand] at h

/-- A row that is not empty tests something. -/
theorem IsSum.exists_atom {row : List (Lexeme α)} (h : IsSum row) (hn : row ≠ []) :
    ∃ a, atom a ∈ row := by
  obtain ⟨terms, hterms, rfl⟩ := h
  have hterms' : terms ≠ [] := by
    rintro rfl
    exact hn rfl
  obtain ⟨b, hb, -⟩ := read_connect_or hterms hterms' fun _ => true
  exact exists_atom_of_operand hb

/-- Atoms and a row after them, with an AND between each two. -/
def afterAtoms (atoms : List α) (row : List (Lexeme α)) : List (Lexeme α) :=
  connect .and (atoms.map (fun a => [atom a]) ++ if row.isEmpty then [] else [row])

/-- An atom of what stands after atoms is one of these or an atom of the row. -/
@[simp] theorem atom_mem_afterAtoms {a : α} {atoms : List α} {row : List (Lexeme α)} :
    atom a ∈ afterAtoms atoms row ↔ a ∈ atoms ∨ atom a ∈ row := by
  have hatoms : (∃ r ∈ atoms.map (fun a => [atom a]), atom a ∈ r) ↔ a ∈ atoms := by
    constructor
    · rintro ⟨r, hr, ha⟩
      obtain ⟨x, hx, rfl⟩ := List.mem_map.mp hr
      simpa using (by simpa using ha : a = x) ▸ hx
    · exact fun ha => ⟨_, List.mem_map_of_mem ha, List.mem_singleton.mpr rfl⟩
  rw [afterAtoms, atom_mem_connect]
  simp only [List.mem_append, or_and_right, exists_or, hatoms]
  cases row <;> simp

/-- Atoms alone hold when all of them are true. -/
theorem admits_atoms (atoms : List α) (v : α → Bool) :
    Admits v (connect .and (atoms.map fun a => [atom a])) ↔ ∀ a ∈ atoms, v a = true := by
  by_cases hn : atoms = []
  · subst hn
    exact iff_of_true (.inl rfl) (by simp)
  · have hterms : ∀ term ∈ atoms.map (fun a => [atom a]), IsTerm term := by
      simpa using fun a _ => IsTerm.atom a
    rw [(IsTerm.connect hterms (by simpa using hn)).2 v]
    simp [IsTerm.admits_atom]

/-- A term after atoms holds with all of them. -/
theorem admits_afterAtoms {row : List (Lexeme α)} (h : IsTerm row) (atoms : List α)
    (v : α → Bool) :
    Admits v (afterAtoms atoms row) ↔ (∀ a ∈ atoms, v a = true) ∧ Admits v row := by
  have hterms : ∀ term ∈ atoms.map (fun a => [atom a]) ++ [row], IsTerm term := by
    intro term ht
    rcases List.mem_append.mp ht with ht | ht
    · obtain ⟨a, -, rfl⟩ := List.mem_map.mp ht
      exact .atom a
    · exact List.mem_singleton.mp ht ▸ h
  rw [afterAtoms, if_neg (by simpa using h.ne_nil), (IsTerm.connect hterms (by simp)).2 v]
  simp [IsTerm.admits_atom, or_imp, forall_and]

/-- A row after some atoms is put behind an AND. -/
theorem afterAtoms_eq {atoms : List α} {row : List (Lexeme α)} (hn : atoms ≠ []) (hr : row ≠ []) :
    afterAtoms atoms row = connect .and (atoms.map fun a => [atom a]) ++ connector .and :: row := by
  rw [afterAtoms, if_neg (by simpa using hr), connect_append .and (by simpa using hn) (by simp)]
  rfl

/-- Alternatives after atoms hold without them: the AND takes only the first alternative. -/
theorem admits_afterAtoms_of_alternates {atoms : List α} {row : List (Lexeme α)} (h : IsSum row)
    (ha : alternates 0 row = true) (hn : atoms ≠ []) (hv : ∀ a, atom a ∈ row → v a = true) :
    Admits v (afterAtoms atoms row) := by
  obtain ⟨terms, hterms, rfl⟩ := h
  rw [alternates_connect_or hterms] at ha
  match terms, hterms, ha, hv with
  | first :: second :: rest, hterms, _, hv =>
    have hatoms : ∀ term ∈ atoms.map (fun a => [atom a]), IsTerm term := by
      simpa using fun a _ => IsTerm.atom a
    have hfirst := (IsTerm.connect hatoms (by simpa using hn)).1.and (hterms first (by simp))
    have hsecond : Admits v second := by
      refine (IsSum.of_term (hterms second (by simp))).admits_of_forall fun a hm => hv a ?_
      cases rest <;> simp [connect, hm]
    have hrow : afterAtoms atoms (connect .or (first :: second :: rest)) =
        connect .or ((connect .and (atoms.map fun a => [atom a]) ++ connector .and :: first)
          :: second :: rest) := by
      rw [afterAtoms_eq hn (by simp [connect])]
      simp [connect]
    rw [hrow, admits_connect_or fun term ht => ?_]
    · exact .inr ⟨second, by simp, hsecond⟩
    · rcases List.mem_cons.mp ht with rfl | ht
      · exact hfirst.1
      · exact hterms term (List.mem_cons_of_mem _ ht)

/-- A row that stands after atoms as it is means all of them and the row exactly when there are no
atoms, or the row has no alternative outside of all parentheses. -/
theorem admits_afterAtoms_iff {atoms : List α} {row : List (Lexeme α)} (h : IsSum row)
    (hother : ∀ a ∈ atoms, atom a ∉ row) :
    (∀ v : α → Bool, Admits v (afterAtoms atoms row) ↔
        (∀ a ∈ atoms, v a = true) ∧ Admits v row) ↔
      atoms = [] ∨ alternates 0 row = false := by
  classical
  constructor
  · intro hall
    by_cases hatoms : atoms = []
    · exact .inl hatoms
    cases ha : alternates 0 row with
    | false => exact .inr rfl
    | true =>
      -- With every atom of the row true and the others false, the row alone carries the text.
      obtain ⟨a, hmem⟩ := List.exists_mem_of_ne_nil atoms hatoms
      have hadmits := admits_afterAtoms_of_alternates (v := fun x => decide (x ∉ atoms)) h ha
        hatoms fun x hx => decide_eq_true fun hm => hother x hm hx
      exact absurd hmem (of_decide_eq_true (((hall _).mp hadmits).1 a hmem))
  · intro hcase v
    by_cases hr : row = []
    · subst hr
      rw [afterAtoms, List.isEmpty_nil, if_pos rfl, List.append_nil, admits_atoms]
      exact ⟨fun hv => ⟨hv, .inl rfl⟩, fun hv => hv.1⟩
    rcases hcase with rfl | ha
    · rw [afterAtoms, if_neg (by simpa using hr)]
      simp [connect]
    · exact admits_afterAtoms (h.isTerm ha hr) atoms v

end Lexeme

end AbstractSql
