import AbstractSql.Query

/-!
# Predicates and their texts

A predicate is a tree of atoms and groups. It is written as a row of lexemes: atoms, connectors and
parentheses. The row is read from left to right, AND binding tighter than OR, and has the value of the
tree, whatever the atoms stand for. A group without atoms is not written, nor is its connector, and the
first part that is written has no connector in front.
-/

namespace AbstractSql

/-- A tree of atoms and groups, with a connector in front of each part of a group. -/
inductive Predicate (α : Type) where
  /-- An atom. -/
  | atom (a : α)
  /-- Parts that belong together. -/
  | group (parts : List (Connector × Predicate α))

/-- A piece of the text of a predicate. -/
inductive Lexeme (α : Type) where
  /-- An atom. -/
  | atom (a : α)
  /-- A connector, with a space on both sides. -/
  | connector (connector : Connector)
  /-- An opening parenthesis. -/
  | opening
  /-- A closing parenthesis. -/
  | closing

/-- A part of a predicate with the connector in front of it. -/
abbrev Part (α : Type) := Connector × Predicate α

variable {α : Type}

namespace Predicate

/-- Value of connected parts after a first one, AND binding tighter than OR. -/
def connected (first : Bool) : List (Connector × Bool) → Bool
  | [] => first
  | (.and, b) :: rest => connected (first && b) rest
  | (.or, b) :: rest => first || connected b rest

/-- Value of connected parts. The connector of the first one does not count, and no parts have no
value. -/
def chained : List (Connector × Bool) → Option Bool
  | [] => none
  | (_, b) :: rest => some (connected b rest)

mutual

/-- Value of a predicate when the atoms have these values; there is none without atoms. -/
def value (v : α → Bool) : Predicate α → Option Bool
  | atom a => some (v a)
  | group parts => chained (values v parts)

/-- Values of the parts that have one, with their connectors. -/
def values (v : α → Bool) : List (Part α) → List (Connector × Bool)
  | [] => []
  | (connector, p) :: rest =>
    match p.value v with
    | none => values v rest
    | some b => (connector, b) :: values v rest

end

mutual

/-- Atoms in order. -/
def atoms : Predicate α → List α
  | atom a => [a]
  | group parts => atomsOf parts

/-- Atoms of the parts in order. -/
def atomsOf : List (Part α) → List α
  | [] => []
  | (_, p) :: rest => p.atoms ++ atomsOf rest

end

mutual

/-- Exactly predicates without atoms have no value. -/
theorem value_eq_none (v : α → Bool) : ∀ p : Predicate α, p.value v = none ↔ p.atoms = []
  | .atom a => by simp [value, atoms]
  | .group parts => by
    have hparts := values_eq_nil v parts
    rw [value, atoms, ← hparts]
    cases values v parts with
    | nil => simp [chained]
    | cons => simp [chained]

/-- Exactly parts without atoms have no values. -/
theorem values_eq_nil (v : α → Bool) :
    ∀ parts : List (Part α), values v parts = [] ↔ atomsOf parts = []
  | [] => by simp [values, atomsOf]
  | (connector, p) :: rest => by
    have hfirst := value_eq_none v p
    have hrest := values_eq_nil v rest
    rw [values, atomsOf, List.append_eq_nil_iff, ← hfirst, ← hrest]
    cases p.value v with
    | none => simp
    | some b => simp

end

end Predicate

namespace Lexeme

/-- Write a part after what has been written. One without lexemes is passed over with its connector, and
the first one is written without its connector. -/
def push (written : List (Lexeme α)) (c : Connector) (part : List (Lexeme α)) : List (Lexeme α) :=
  if part.isEmpty then written
  else if written.isEmpty then part
  else written ++ connector c :: part

/-- Put parentheses around lexemes, if there are any. -/
def enclose (inner : List (Lexeme α)) : List (Lexeme α) :=
  if inner.isEmpty then [] else opening :: inner ++ [closing]

end Lexeme

namespace Predicate

mutual

/-- A predicate as it is written. A group of one part is that part. -/
def lexemes : Predicate α → List (Lexeme α)
  | atom a => [.atom a]
  | group [] => []
  | group [(_, only)] => only.lexemes
  | group (first :: second :: rest) => Lexeme.enclose (lexemesAfter [] (first :: second :: rest))

/-- Parts as they are written after others. -/
def lexemesAfter (written : List (Lexeme α)) : List (Part α) → List (Lexeme α)
  | [] => written
  | (connector, p) :: rest => lexemesAfter (Lexeme.push written connector p.lexemes) rest

end

end Predicate

/-- What has been read since the last open parenthesis: the alternatives before the present one, and the
present one so far. -/
structure Level where
  /-- Whether one of the earlier alternatives holds. -/
  earlier : Bool
  /-- Whether the present alternative holds so far. -/
  current : Bool

namespace Level

/-- Nothing has been read. -/
def start : Level := ⟨false, true⟩

/-- Value of what has been read. -/
def value (l : Level) : Bool := l.earlier || l.current

/-- One more operand of the present alternative. -/
def meet (l : Level) (b : Bool) : Level := ⟨l.earlier, l.current && b⟩

/-- The present alternative ends, and another one begins. -/
def alternative (l : Level) : Level := ⟨l.value, true⟩

/-- What comes after a connector. -/
def after (l : Level) : Connector → Level
  | .and => l
  | .or => l.alternative

/-- An operand with the value of what has been read does not change it. -/
theorem value_meet_value (l : Level) : (l.meet l.value).value = l.value := by
  cases l with
  | mk earlier current => cases earlier <;> cases current <;> rfl

/-- The next alternative starts with the value of those before it. -/
theorem value_meet_alternative (l : Level) : (l.alternative.meet l.value).value = l.value := by
  simp [alternative, meet, value]

/-- Connected parts have their value after what a level has read. -/
theorem connected_cons (l : Level) (c : Connector) (b : Bool)
    (rest : List (Connector × Bool)) :
    (l.earlier || Predicate.connected l.current ((c, b) :: rest)) =
      (((l.after c).meet b).earlier || Predicate.connected ((l.after c).meet b).current rest) := by
  cases c with
  | and => rfl
  | or =>
    simp only [Predicate.connected, after, alternative, meet, value,
      Bool.true_and, Bool.or_assoc]

end Level

namespace Lexeme

mutual

/-- Read lexemes where an operand is expected, with the levels of the open parentheses. -/
def operand (v : α → Bool) (l : Level) (outer : List Level) : List (Lexeme α) → Option Bool
  | atom a :: rest => operator v (l.meet (v a)) outer rest
  | opening :: rest => operand v .start (l :: outer) rest
  | _ => none

/-- Read lexemes after an operand. -/
def operator (v : α → Bool) (l : Level) (outer : List Level) : List (Lexeme α) → Option Bool
  | [] => if outer.isEmpty then some l.value else none
  | connector c :: rest => operand v (l.after c) outer rest
  | closing :: rest =>
    match outer with
    | [] => none
    | enclosing :: outer => operator v (enclosing.meet l.value) outer rest
  | _ => none

end

/-- The value of a row of lexemes when the atoms have these values, AND binding tighter than OR; a row
that is not well formed has none. -/
def read (v : α → Bool) (lexemes : List (Lexeme α)) : Option Bool := operand v .start [] lexemes

/-- Whether an OR stands in a row of lexemes outside of all parentheses, inside this many of which the
row begins. -/
def alternates (depth : Nat) : List (Lexeme α) → Bool
  | [] => false
  | opening :: rest => alternates (depth + 1) rest
  | closing :: rest => alternates (depth - 1) rest
  | connector .or :: rest => depth == 0 || alternates depth rest
  | _ :: rest => alternates depth rest

variable {v : α → Bool} {l : Level} {outer : List Level}

/-- Lexemes that are read as one operand of the given value. -/
def ReadsAs (v : α → Bool) (lexemes : List (Lexeme α)) (b : Bool) : Prop :=
  ∀ l outer rest, operand v l outer (lexemes ++ rest) = operator v (l.meet b) outer rest

/-- Lexemes that are read up to the given level, where nothing has been read before. -/
def ReadsTo (v : α → Bool) (lexemes : List (Lexeme α)) (l : Level) : Prop :=
  ∀ outer rest, operand v .start outer (lexemes ++ rest) = operator v l outer rest

/-- A row of lexemes has this value, and none if it is empty. -/
def HasValue (v : α → Bool) (lexemes : List (Lexeme α)) : Option Bool → Prop
  | none => lexemes = []
  | some b => lexemes ≠ [] ∧ ReadsAs v lexemes b

/-- Parts that are written after others are read after them. -/
theorem ReadsTo.push {written part : List (Lexeme α)} {b : Bool} (hw : ReadsTo v written l)
    (hp : ReadsAs v part b) (c : Connector) :
    ReadsTo v (written ++ connector c :: part) ((l.after c).meet b) := by
  intro outer rest
  rw [List.append_assoc, hw, List.cons_append, operator, hp]

/-- What is read as one operand is read up to its value. -/
theorem ReadsAs.readsTo {lexemes : List (Lexeme α)} {b : Bool} (h : ReadsAs v lexemes b) :
    ReadsTo v lexemes (Level.start.meet b) := fun outer rest => h .start outer rest

/-- Parentheses make an operand of what is read up to a level. -/
theorem ReadsTo.enclose {inner : List (Lexeme α)} (h : ReadsTo v inner l) (hi : inner ≠ []) :
    ReadsAs v (enclose inner) l.value := by
  intro level outer rest
  have hn : inner.isEmpty = false := by simpa using hi
  rw [Lexeme.enclose, hn]
  simp only [Bool.false_eq_true, if_false, List.cons_append, List.append_assoc, List.nil_append]
  rw [operand, h, operator]

/-- Parts that are written after others are read to the value of all of them. -/
theorem readsTo_lexemesAfter {parts : List (Part α)}
    (hp : ∀ part ∈ parts, HasValue v part.2.lexemes (part.2.value v)) {written : List (Lexeme α)}
    {l : Level} (hw : ReadsTo v written l) (hn : written ≠ []) :
    Predicate.lexemesAfter written parts ≠ [] ∧
      ∃ l', ReadsTo v (Predicate.lexemesAfter written parts) l' ∧
        l'.value = (l.earlier || Predicate.connected l.current (Predicate.values v parts)) := by
  -- From here on each part brings its connector, so the level that has been read carries the induction.
  induction parts generalizing written l with
  | nil => exact ⟨hn, l, hw, rfl⟩
  | cons part rest ih =>
    obtain ⟨c, p⟩ := part
    have hrest := fun q hq => hp q (List.mem_cons_of_mem _ hq)
    have hpart := hp (c, p) List.mem_cons_self
    have hwritten : written.isEmpty = false := by simpa using hn
    rw [Predicate.lexemesAfter, Predicate.values, push, hwritten]
    cases hb : p.value v with
    | none =>
      have hnil : p.lexemes = [] := by simpa only [hb, HasValue] using hpart
      rw [hnil]
      exact ih hrest hw hn
    | some b =>
      obtain ⟨hne, hreads⟩ : p.lexemes ≠ [] ∧ ReadsAs v p.lexemes b := by
        simpa only [hb, HasValue] using hpart
      have hempty : p.lexemes.isEmpty = false := by simpa using hne
      simp only [hempty, Bool.false_eq_true, if_false]
      rw [Level.connected_cons]
      exact ih hrest (hw.push hreads c) (by simp)

/-- Parts that are written first have no lexemes if they have no value, and are read to it if they have
one. -/
theorem hasLevel_lexemes {parts : List (Part α)}
    (hp : ∀ part ∈ parts, HasValue v part.2.lexemes (part.2.value v)) :
    match Predicate.chained (Predicate.values v parts) with
    | none => Predicate.lexemesAfter [] parts = []
    | some b => Predicate.lexemesAfter [] parts ≠ [] ∧
        ∃ l, ReadsTo v (Predicate.lexemesAfter [] parts) l ∧ l.value = b := by
  induction parts with
  | nil => rfl
  | cons part rest ih =>
    obtain ⟨c, p⟩ := part
    have hrest := fun q hq => hp q (List.mem_cons_of_mem _ hq)
    have hpart := hp (c, p) List.mem_cons_self
    rw [Predicate.lexemesAfter, Predicate.values, push]
    cases hb : p.value v with
    | none =>
      have hnil : p.lexemes = [] := by simpa only [hb, HasValue] using hpart
      rw [hnil]
      exact ih hrest
    | some b =>
      obtain ⟨hne, hreads⟩ : p.lexemes ≠ [] ∧ ReadsAs v p.lexemes b := by
        simpa only [hb, HasValue] using hpart
      have hempty : p.lexemes.isEmpty = false := by simpa using hne
      simp only [hempty, Bool.false_eq_true, if_false, List.isEmpty_nil, if_true,
        Predicate.chained]
      exact readsTo_lexemesAfter hrest hreads.readsTo hne

mutual

/-- A predicate is read as one operand of its value. -/
theorem hasValue_lexemes (v : α → Bool) :
    ∀ p : Predicate α, HasValue v p.lexemes (p.value v)
  | .atom a => by
    rw [Predicate.value, Predicate.lexemes]
    exact ⟨by simp, fun l outer rest => rfl⟩
  | .group [] => by
    rw [Predicate.value, Predicate.lexemes, Predicate.values]
    rfl
  | .group [(c, only)] => by
    -- No parentheses are needed: the connector of a first part counts neither as text nor as value.
    have honly := hasValue_lexemes v only
    rw [Predicate.value, Predicate.lexemes, Predicate.values]
    cases hb : only.value v with
    | none => simpa only [hb, Predicate.values, Predicate.chained] using honly
    | some b =>
      simpa only [hb, Predicate.values, Predicate.chained, Predicate.connected] using honly
  | .group (first :: second :: rest) => by
    have hparts := hasLevel_lexemes (hasValue_parts v (first :: second :: rest))
    rw [Predicate.value, Predicate.lexemes]
    cases hb : Predicate.chained (Predicate.values v (first :: second :: rest)) with
    | none =>
      rw [hb] at hparts
      simp only [hparts]
      rfl
    | some b =>
      rw [hb] at hparts
      obtain ⟨hne, l, hl, rfl⟩ := hparts
      exact ⟨by simp [enclose, hne], hl.enclose hne⟩

/-- The parts of a predicate are read as operands of their values. -/
theorem hasValue_parts (v : α → Bool) :
    ∀ (parts : List (Part α)), ∀ part ∈ parts, HasValue v part.2.lexemes (part.2.value v)
  | [], _, h => absurd h List.not_mem_nil
  | (_, p) :: rest, part, h => by
    rcases List.mem_cons.mp h with rfl | h
    · exact hasValue_lexemes v p
    · exact hasValue_parts v rest part h

end

/-- A predicate text is read as the value of its parts, whatever the atoms stand for. -/
theorem read_lexemesAfter (v : α → Bool) (parts : List (Part α)) :
    read v (Predicate.lexemesAfter [] parts) =
      Predicate.chained (Predicate.values v parts) := by
  have h := hasLevel_lexemes (hasValue_parts v parts)
  cases hb : Predicate.chained (Predicate.values v parts) with
  | none =>
    simp only [hb] at h
    rw [h]
    rfl
  | some b =>
    simp only [hb] at h
    obtain ⟨-, l, hl, rfl⟩ := h
    have hread := hl [] []
    rw [List.append_nil] at hread
    rw [read, hread]
    rfl

/-- `true OR true AND false` is true, and with parentheses around the OR it is false. -/
example :
    read id [.atom true, .connector .or, .atom true, .connector .and, .atom false] = some true ∧
      read id [.opening, .atom true, .connector .or, .atom true, .closing, .connector .and,
        .atom false] = some false := by
  decide

/-- Exactly parts without atoms are written without lexemes. -/
theorem lexemesAfter_eq_nil (parts : List (Part α)) :
    Predicate.lexemesAfter [] parts = [] ↔ Predicate.atomsOf parts = [] := by
  have h := hasLevel_lexemes (hasValue_parts (fun _ => true) parts)
  rw [← Predicate.values_eq_nil fun _ => true]
  cases hv : Predicate.values (fun _ => true) parts with
  | nil =>
    rw [hv] at h
    exact iff_of_true h rfl
  | cons first rest =>
    rw [hv] at h
    exact iff_of_false h.1 (by simp)

/-- Lexemes with matching parentheses and without an OR outside of them. -/
def Flat (lexemes : List (Lexeme α)) : Prop :=
  ∀ depth rest, alternates depth (lexemes ++ rest) = alternates depth rest

/-- Lexemes with matching parentheses. -/
def Balanced (lexemes : List (Lexeme α)) : Prop :=
  ∀ depth rest, alternates depth (lexemes ++ rest) =
    (depth == 0 && alternates 0 lexemes || alternates depth rest)

/-- An OR counts where no parenthesis is open. -/
theorem alternates_cons (depth : Nat) (c : Connector) (rest : List (Lexeme α)) :
    alternates depth (connector c :: rest) =
      ((depth == 0 && c == .or) || alternates depth rest) := by
  cases c with
  | and => simp [alternates]
  | or => simp [alternates]

/-- No lexemes at all have no OR. -/
theorem Flat.nil : Flat ([] : List (Lexeme α)) := fun _ _ => rfl

/-- No OR stands outside of the parentheses of flat lexemes. -/
theorem Flat.alternates_eq_false {lexemes : List (Lexeme α)} (h : Flat lexemes) :
    alternates 0 lexemes = false := by
  have hnil := h 0 []
  rwa [List.append_nil] at hnil

/-- Lexemes without an OR outside of parentheses have matching parentheses. -/
theorem Flat.balanced {lexemes : List (Lexeme α)} (h : Flat lexemes) : Balanced lexemes := by
  intro depth rest
  rw [h, h.alternates_eq_false, Bool.and_false, Bool.false_or]

/-- An OR connects a part to what is written before it exactly when it is the connector, or one was there
before. -/
theorem Balanced.alternates_connector {written part : List (Lexeme α)} (hw : Balanced written)
    (hp : Flat part) (c : Connector) :
    alternates 0 (written ++ connector c :: part) = (alternates 0 written || c == .or) := by
  rw [hw, alternates_cons, hp.alternates_eq_false, beq_self_eq_true, Bool.true_and, Bool.true_and,
    Bool.or_false]

/-- Parts that are written after others have matching parentheses too. -/
theorem Balanced.push {written part : List (Lexeme α)} (hw : Balanced written) (hp : Flat part)
    (c : Connector) : Balanced (push written c part) := by
  unfold Lexeme.push
  split
  · exact hw
  · split
    · exact hp.balanced
    · intro depth rest
      rw [hw.alternates_connector hp, List.append_assoc, hw, List.cons_append, alternates_cons, hp,
        Bool.and_or_distrib_left, Bool.or_assoc]

/-- Inside of parentheses an OR does not count. -/
theorem Balanced.enclose {inner : List (Lexeme α)} (h : Balanced inner) : Flat (enclose inner) := by
  unfold Lexeme.enclose
  split
  · exact .nil
  · intro depth rest
    rw [List.cons_append, List.cons_append, List.append_assoc, alternates, h]
    rfl

/-- Parts that are written one after another have matching parentheses. -/
theorem balanced_lexemesAfter {parts : List (Part α)}
    (hp : ∀ part ∈ parts, Flat part.2.lexemes) {written : List (Lexeme α)}
    (hw : Balanced written) : Balanced (Predicate.lexemesAfter written parts) := by
  induction parts generalizing written with
  | nil => exact hw
  | cons part rest ih =>
    obtain ⟨c, p⟩ := part
    have hrest := fun q hq => hp q (List.mem_cons_of_mem _ hq)
    have hpart := hp (c, p) List.mem_cons_self
    rw [Predicate.lexemesAfter]
    exact ih hrest (hw.push hpart c)

mutual

/-- A predicate is written without an OR outside of parentheses. -/
theorem flat_lexemes : ∀ p : Predicate α, Flat p.lexemes
  | .atom a => by
    rw [Predicate.lexemes]
    exact fun _ _ => rfl
  | .group [] => by
    rw [Predicate.lexemes]
    exact .nil
  | .group [(_, only)] => by
    rw [Predicate.lexemes]
    exact flat_lexemes only
  | .group (first :: second :: rest) => by
    rw [Predicate.lexemes]
    exact (balanced_lexemesAfter (flat_parts (first :: second :: rest)) Flat.nil.balanced).enclose

/-- The parts of a predicate are written so. -/
theorem flat_parts : ∀ (parts : List (Part α)), ∀ part ∈ parts, Flat part.2.lexemes
  | [], _, h => absurd h List.not_mem_nil
  | (_, p) :: rest, part, h => by
    rcases List.mem_cons.mp h with rfl | h
    · exact flat_lexemes p
    · exact flat_parts rest part h

end

/-- Text of a lexeme. -/
def text (label : α → String) : Lexeme α → String
  | atom a => label a
  | connector c => " " ++ c.sql ++ " "
  | opening => "("
  | closing => ")"

/-- Text of a row of lexemes. -/
def textOf (label : α → String) : List (Lexeme α) → String
  | [] => ""
  | lexeme :: rest => lexeme.text label ++ textOf label rest

/-- Text of two rows of lexemes. -/
@[simp] theorem textOf_append (label : α → String) (first second : List (Lexeme α)) :
    textOf label (first ++ second) = textOf label first ++ textOf label second := by
  induction first with
  | nil => simp [textOf]
  | cons lexeme rest ih => simp only [List.cons_append, textOf, ih, String.append_assoc]

end Lexeme

end AbstractSql
