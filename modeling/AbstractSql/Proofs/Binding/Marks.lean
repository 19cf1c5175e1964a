import AbstractSql.Binding
import AbstractSql.Proofs.Segment.Chain

/-!
# Marks and their values

A statement bound by position is cut into segments again: those of the statement, with the marks of
its value in the place of each placeholder. A mark is neither prolonged by what follows it nor part
of what stands in front of it, so the marks of the bound statement are those that were bare before
and one for each value, in the order of the values.
-/

namespace AbstractSql.Segment

open AbstractSql.Bound (marks scalars)

/-- The segments behind the first mark of a list. -/
def row : List Value → List Segment
  | [] => [sql ")"]
  | _ :: items => sql ", " :: sql "?" :: row items

/-- The segments that stand for a value. -/
def pieces : Value → List Segment
  | .list [] => [sql "(NULL)"]
  | .list (_ :: items) => sql "(" :: sql "?" :: row items
  | _ => [sql "?"]

/-- A segment with the marks in the place of a placeholder. Without a value there is none. -/
def expand (parameters : ParameterSet) : Segment → List Segment
  | sql text => [sql text]
  | placeholder name => (parameters.value? name).elim [] pieces

/-- Segments with the marks in the places of the placeholders. -/
def expandAll (parameters : ParameterSet) (segments : List Segment) : List Segment :=
  segments.flatMap (expand parameters)

/-- The values of a segment: those behind a placeholder. -/
def values (parameters : ParameterSet) : Segment → List Value
  | sql _ => []
  | placeholder name => (parameters.value? name).elim [] scalars

section

variable {parameters : ParameterSet} {segments front back : List Segment} {rest : List Char}

@[simp] theorem filterMap_name?_sql (text : String) :
    (sql text :: segments).filterMap name? = segments.filterMap name? := rfl

@[simp] theorem filterMap_name?_placeholder (name : String) :
    (placeholder name :: segments).filterMap name? = name :: segments.filterMap name? := rfl

/-- The segments that stand for a value are its marks. -/
theorem join_pieces (value : Value) : String.join ((pieces value).map render) = marks value := by
  have hrow : ∀ items : List Value, "?" ++ String.join ((row items).map render) =
      String.intercalate ", " ("?" :: items.map fun _ => "?") ++ ")" := by
    intro items
    induction items with
    | nil => simp [row, render]
    | cons _ items ih =>
      rw [List.map_cons, String.intercalate_cons_cons, String.append_assoc, ← ih]
      simp [row, render, ← String.append_assoc]
  cases value with
  | list items =>
    cases items with
    | nil => simp [pieces, render, marks]
    | cons item items =>
      rw [marks, List.map_cons, String.append_assoc, ← hrow]
      · simp [pieces, render]
      · simp
  | _ => simp [pieces, render, marks]

/-- Taken names are those with a value. -/
theorem contains_eq_true {name : String} :
    parameters.contains name = true ↔ ∃ value, parameters.value? name = some value := by
  rw [← Option.isSome_iff_exists]
  simp [ParameterSet.contains, ParameterSet.value?, ParameterSet.get?]

/-- Statements whose placeholders all have values are bound as their expansion. Otherwise the first
placeholder without a value is named. -/
theorem ofSegments_eq (parameters : ParameterSet) (segments : List Segment) :
    Bound.ofSegments parameters segments =
      match (segments.filterMap name?).find? fun name => !parameters.contains name with
      | some name => .error (.unknownParameter name)
      | none => .ok ⟨String.join ((expandAll parameters segments).map render),
          segments.flatMap (values parameters)⟩ := by
  induction segments with
  | nil => rfl
  | cons segment segments ih =>
    cases segment with
    | sql text =>
      rw [Bound.ofSegments, ih, filterMap_name?_sql]
      split
      · rfl
      · simp [Except.map, Bound.prepend, expandAll, expand, values, render]
    | placeholder name =>
      rw [Bound.ofSegments, ih, filterMap_name?_placeholder, List.find?_cons]
      cases hv : parameters.value? name with
      | none =>
        have hc : parameters.contains name = false := by
          rw [← Bool.not_eq_true, contains_eq_true]
          simp [hv]
        simp only [hc, Bool.not_false]
      | some value =>
        simp only [contains_eq_true.mpr ⟨value, hv⟩, Bool.not_true]
        cases (segments.filterMap name?).find? fun name => !parameters.contains name with
        | some missing => rfl
        | none => simp [Except.map, Bound.prepend, expandAll, expand, values, hv, join_pieces]

/-- A statement whose names are all taken is bound as its expansion. -/
theorem ofSegments_of_contains
    (hv : ∀ name ∈ segments.filterMap name?, parameters.contains name = true) :
    Bound.ofSegments parameters segments =
      .ok ⟨String.join ((expandAll parameters segments).map render),
        segments.flatMap (values parameters)⟩ := by
  have hnone : (segments.filterMap name?).find? (fun name => !parameters.contains name) = none :=
    List.find?_eq_none.mpr fun name hn => by simp [hv name hn]
  simp only [ofSegments_eq, hnone]

/-- The marks of a value are as many as its scalars. -/
theorem count_pieces (value : Value) : (pieces value).count (sql "?") = (scalars value).length := by
  have hrow : ∀ items : List Value, (row items).count (sql "?") = items.length := by
    intro items
    induction items with
    | nil => decide
    | cons _ items ih => simp [row, ih]
  cases value with
  | list items => cases items <;> simp [pieces, scalars, hrow]
  | _ => simp [pieces, scalars]

/-- Placeholders become as many marks as they have values. -/
theorem count_expandAll (parameters : ParameterSet) (segments : List Segment) :
    (expandAll parameters segments).count (sql "?") =
      segments.count (sql "?") + (segments.flatMap (values parameters)).length := by
  induction segments with
  | nil => rfl
  | cons segment segments ih =>
    rw [expandAll, List.flatMap_cons, List.count_append, List.flatMap_cons, List.length_append]
    change _ + (expandAll parameters segments).count _ = _
    rw [ih]
    cases segment with
    | sql text => simp [expand, values, List.count_cons]; omega
    | placeholder name =>
      cases hv : parameters.value? name with
      | none => simp [expand, values, hv]
      | some value => simp [expand, values, hv, count_pieces]; omega

/-- No placeholder is left. -/
theorem name?_expandAll : ∀ segment ∈ expandAll parameters segments, segment.name? = none := by
  have hrow : ∀ items : List Value, ∀ segment ∈ row items, segment.name? = none := by
    intro items
    induction items with
    | nil => simp [row, name?]
    | cons _ items ih => simpa [row, name?] using ih
  have hpieces : ∀ value : Value, ∀ segment ∈ pieces value, segment.name? = none := by
    intro value
    cases value with
    | list items =>
      cases items with
      | nil => simp [pieces, name?]
      | cons item items => simpa [pieces, name?] using hrow items
    | _ => simp [pieces, name?]
  intro segment hs
  obtain ⟨origin, -, hs⟩ := List.mem_flatMap.mp hs
  cases origin with
  | sql text =>
    obtain rfl : segment = sql text := by simpa [expand] using hs
    rfl
  | placeholder name =>
    cases hv : parameters.value? name with
    | none => simp [expand, hv] at hs
    | some value => exact hpieces value segment (by simpa [expand, hv] using hs)

/-- Without placeholders there is nothing to put in their place. -/
theorem expandAll_eq_self (h : ∀ segment ∈ segments, segment.name? = none) :
    expandAll parameters segments = segments := by
  induction segments with
  | nil => rfl
  | cons segment segments ih =>
    cases segment with
    | placeholder name => exact absurd (h _ List.mem_cons_self) (by simp [name?])
    | sql text =>
      exact congrArg (sql text :: ·) (ih fun segment hs => h segment (List.mem_cons_of_mem _ hs))

/-- Behind a mark of a list there is no character of a name. -/
theorem head?_row (items : List Value) (rest : List Char) :
    ∀ c ∈ (charactersOf (row items) ++ rest).head?, isNameCharacter c = false := by
  have hclose : (sql ")").characters = [')'] := by decide
  have hcomma : (sql ", ").characters = [',', ' '] := by decide
  have hnames : isNameCharacter ')' = false ∧ isNameCharacter ',' = false := by decide
  cases items with
  | nil => simp [row, hclose, hnames]
  | cons item items => simp [row, hcomma, hnames]

/-- The rest of a list is a chain. -/
theorem chain_row (items : List Value) (rest : List Char) : Chain rest (row items) := by
  induction items with
  | nil => exact Chain.nil.run (by decide) (by decide)
  | cons item items ih => exact (ih.mark (head?_row items rest)).run (by decide) (by decide)

/-- The marks of a value are a chain in front of what belongs to no name. -/
theorem chain_pieces (value : Value) (h : ∀ c ∈ rest.head?, isNameCharacter c = false) :
    Chain rest (pieces value) := by
  cases value with
  | list items =>
    cases items with
    | nil => exact Chain.nil.run (by decide) (by decide)
    | cons item items =>
      exact ((chain_row items rest).mark (head?_row items rest)).run (by decide) (by decide)
  | _ => exact Chain.nil.mark h

/-- The marks of a value begin with a character that prolongs nothing. -/
theorem head?_pieces (value : Value) :
    ∃ c cs, charactersOf (pieces value) = c :: cs ∧ isNameCharacter c = false ∧
      isQuote c = false := by
  have hnull : (sql "(NULL)").characters = '(' :: ['N', 'U', 'L', 'L', ')'] := by decide
  have hopen : (sql "(").characters = ['('] := by decide
  have hmark : (sql "?").characters = ['?'] := by decide
  cases value with
  | list items =>
    cases items with
    | nil => exact ⟨'(', _, by rw [pieces, charactersOf_cons, hnull]; rfl, by decide, by decide⟩
    | cons item items =>
      exact ⟨'(', _, by rw [pieces, charactersOf_cons, hopen]; rfl, by decide, by decide⟩
  | _ => exact ⟨'?', [], by simp [pieces, hmark], by decide, by decide⟩

/-- The first character of an expansion is the one that stood there, or it prolongs nothing. -/
theorem head?_expandAll (h : Chain rest segments)
    (hv : ∀ name ∈ segments.filterMap name?, parameters.contains name = true) {c : Char}
    (hc : c ∈ (charactersOf (expandAll parameters segments) ++ rest).head?) :
    c ∈ (charactersOf segments ++ rest).head? ∨ isNameCharacter c = false ∧ isQuote c = false := by
  cases h with
  | nil => exact .inl hc
  | @cons segment segments piece _ _ =>
    cases segment with
    | sql text =>
      obtain ⟨d, cs, hd⟩ := piece.exists_cons
      exact .inl (by simpa [expandAll, expand, hd] using hc)
    | placeholder name =>
      obtain ⟨value, hvalue⟩ := contains_eq_true.mp (hv name (by simp))
      obtain ⟨d, cs, hd, hn, hq⟩ := head?_pieces value
      obtain rfl : d = c := by simpa [expandAll, expand, hvalue, hd] using hc
      exact .inr ⟨hn, hq⟩

/-- The expansion of a chain is a chain. -/
theorem chain_expandAll (h : Chain rest segments)
    (hv : ∀ name ∈ segments.filterMap name?, parameters.contains name = true) :
    Chain rest (expandAll parameters segments) := by
  induction h with
  | nil => exact .nil
  | @cons segment segments piece ends chain ih =>
    have hrest : ∀ name ∈ segments.filterMap name?, parameters.contains name = true := by
      intro name hn
      obtain ⟨origin, ho, hname⟩ := List.mem_filterMap.mp hn
      exact hv name (List.mem_filterMap.mpr ⟨origin, List.mem_cons_of_mem _ ho, hname⟩)
    have hends : ∀ c ∈ (charactersOf (expandAll parameters segments) ++ rest).head?,
        segment.endsBefore c = true := by
      intro c hc
      rcases head?_expandAll chain hrest hc with hc | ⟨hn, hq⟩
      · exact ends c hc
      · exact piece.endsBefore_of hn hq
    cases segment with
    | sql text => exact .cons piece hends (ih hrest)
    | placeholder name =>
      obtain ⟨value, hvalue⟩ := contains_eq_true.mp (hv name (by simp))
      have hexpand : expandAll parameters (placeholder name :: segments) =
          pieces value ++ expandAll parameters segments := by simp [expandAll, expand, hvalue]
      rw [hexpand]
      exact (chain_pieces value fun c hc => by simpa [endsBefore] using hends c hc).append
        (ih hrest)

/-- The placeholders of a text are those of its segments. -/
theorem placeholders_eq_ok {text : String} {names : List String} :
    placeholders text = .ok names ↔
      ∃ segments, scan text = .ok segments ∧ segments.filterMap name? = names := by
  unfold placeholders
  cases scan text <;> simp [Except.map]

/-- A text whose names are all taken is bound as its expansion. -/
theorem bind_of_scan {text : String} (hs : scan text = .ok segments)
    (hv : ∀ name ∈ segments.filterMap name?, parameters.contains name = true) :
    bind text parameters = .ok ⟨String.join ((expandAll parameters segments).map render),
      segments.flatMap (values parameters)⟩ := by
  rw [bind, hs]
  exact ofSegments_of_contains hv

/-- A bound statement is the expansion of its segments, and every name is taken. -/
theorem bind_eq_ok {text : String} {bound : Bound} (h : bind text parameters = .ok bound) :
    ∃ segments, scan text = .ok segments ∧
      (∀ name ∈ segments.filterMap name?, parameters.contains name = true) ∧
      bound = ⟨String.join ((expandAll parameters segments).map render),
        segments.flatMap (values parameters)⟩ := by
  unfold bind at h
  cases hs : scan text with
  | error failure => simp [hs] at h
  | ok segments =>
    simp only [hs, ofSegments_eq] at h
    cases hf : (segments.filterMap name?).find? fun name => !parameters.contains name with
    | some name => simp [hf] at h
    | none =>
      refine ⟨segments, rfl, fun name hn => ?_, by simpa [hf] using h.symm⟩
      simpa using List.find?_eq_none.mp hf name hn

/-- A bound statement is cut into its expansion, with runs next to each other put together. -/
theorem scan_bound {text : String} {bound : Bound} (hs : scan text = .ok segments)
    (h : bind text parameters = .ok bound) :
    scan bound.sql = .ok (fuse (expandAll parameters segments)) := by
  obtain ⟨found, hfound, hv, rfl⟩ := bind_eq_ok h
  obtain rfl : segments = found := Except.ok.inj (hs.symm.trans hfound)
  exact scan_chain (chain_expandAll (chain_scan hs).1 hv) (toList_join_render _).symm

/-- No placeholder is left in a bound statement. -/
theorem name?_fuse_expandAll :
    ∀ segment ∈ fuse (expandAll parameters segments), segment.name? = none := by
  have hcount : (fuse (expandAll parameters segments)).countP (fun s => s.name?.isSome) = 0 := by
    rw [countP_fuse, List.countP_eq_zero]
    · intro segment hs
      simp [name?_expandAll segment hs]
    · intro segment hr
      cases segment with
      | sql text => rfl
      | placeholder name => exact absurd hr (by simp [isRun])
  intro segment hs
  simpa using List.countP_eq_zero.mp hcount segment hs

/-- The values of segments are those of their placeholders. -/
theorem flatMap_values (segments : List Segment) :
    segments.flatMap (values parameters) =
      (segments.filterMap name?).flatMap fun name => (parameters.value? name).elim [] scalars := by
  induction segments with
  | nil => rfl
  | cons segment segments ih =>
    rw [List.flatMap_cons, ih]
    cases segment <;> rfl

/-- Each bare mark has its place among them. -/
theorem exists_mark {n : Nat} (h : n < segments.count (sql "?")) :
    ∃ left right, segments = left ++ sql "?" :: right ∧ left.count (sql "?") = n := by
  induction segments generalizing n with
  | nil => simp at h
  | cons segment segments ih =>
    by_cases hs : segment = sql "?"
    · subst hs
      cases n with
      | zero => exact ⟨[], segments, rfl, rfl⟩
      | succ n =>
        obtain ⟨left, right, rfl, hn⟩ := ih (by simpa using h)
        exact ⟨sql "?" :: left, right, rfl, by simp [hn]⟩
    · rw [List.count_cons_of_ne hs] at h
      obtain ⟨left, right, rfl, hn⟩ := ih h
      exact ⟨segment :: left, right, rfl, by rw [List.count_cons_of_ne hs, hn]⟩

/-- Each value has its place behind a placeholder. -/
theorem exists_placeholder {i : Nat} {item : Value}
    (h : (segments.flatMap (values parameters))[i]? = some item) :
    ∃ left name right j, segments = left ++ placeholder name :: right ∧
      i = (left.flatMap (values parameters)).length + j ∧
      (values parameters (placeholder name))[j]? = some item := by
  induction segments generalizing i with
  | nil => simp at h
  | cons segment segments ih =>
    rw [List.flatMap_cons] at h
    rcases Nat.lt_or_ge i (values parameters segment).length with hi | hi
    · rw [List.getElem?_append_left hi] at h
      cases segment with
      | sql text => simp [values] at hi
      | placeholder name => exact ⟨[], name, segments, i, rfl, by simp, h⟩
    · rw [List.getElem?_append_right hi] at h
      obtain ⟨left, name, right, j, rfl, hj, hitem⟩ := ih h
      refine ⟨segment :: left, name, right, j, rfl, ?_, hitem⟩
      rw [List.flatMap_cons, List.length_append]
      omega

end

/-- The value at the place `i` is one of those behind a placeholder, and its mark is one of those that
stand where the placeholder stood: there are `i` marks of values in front of it, and as many bare
ones as in the statement. -/
def Aligned (text : String) (parameters : ParameterSet) (bound : Bound) (i : Nat) (item : Value) :
    Prop :=
  ∃ left name right value j, scan text = .ok (left ++ placeholder name :: right) ∧
    parameters.value? name = some value ∧ (scalars value)[j]? = some item ∧
    ∃ front back, Bound.ofSegments parameters left = .ok front ∧
      Bound.ofSegments parameters right = .ok back ∧ i = front.values.length + j ∧
      ∃ opening closing, marks value = opening ++ "?" ++ closing ∧
        ∃ before after, scan bound.sql = .ok (before ++ sql "?" :: after) ∧
          String.join (before.map render) = front.sql ++ opening ∧
          String.join (after.map render) = closing ++ back.sql ∧
          before.count (sql "?") = left.count (sql "?") + i

/-- Each mark of a bound statement stands where the placeholder of its value stood. -/
theorem aligned_of_bind {text : String} {parameters : ParameterSet} {bound : Bound}
    (h : bind text parameters = .ok bound) {i : Nat} {item : Value}
    (hitem : bound.values[i]? = some item) : Aligned text parameters bound i item := by
  obtain ⟨segments, hs, hv, rfl⟩ := bind_eq_ok h
  obtain ⟨left, name, right, j, rfl, rfl, hj⟩ := exists_placeholder hitem
  obtain ⟨value, hvalue⟩ := contains_eq_true.mp (hv name (by simp))
  have hscalar : (scalars value)[j]? = some item := by simpa [values, hvalue] using hj
  have hcount : j < (pieces value).count (sql "?") := by
    rw [count_pieces]
    exact (List.getElem?_eq_some_iff.mp hscalar).1
  obtain ⟨opening, closing, hpieces, hopening⟩ := exists_mark hcount
  rw [List.filterMap_append, filterMap_name?_placeholder] at hv
  have hleft := ofSegments_of_contains fun name hn => hv name (List.mem_append_left _ hn)
  have hright := ofSegments_of_contains fun name hn =>
    hv name (List.mem_append_right _ (List.mem_cons_of_mem _ hn))
  have hexpand : expandAll parameters (left ++ placeholder name :: right) =
      (expandAll parameters left ++ opening) ++ sql "?" ::
        (closing ++ expandAll parameters right) := by
    simp [expandAll, expand, hvalue, hpieces]
  have hmark : (sql "?").isRun = false := by decide
  refine ⟨left, name, right, value, j, hs, hvalue, hscalar, _, _, hleft, hright, rfl,
    String.join (opening.map render), String.join (closing.map render), ?_,
    fuse (expandAll parameters left ++ opening), fuse (closing ++ expandAll parameters right),
    ?_, ?_, ?_, ?_⟩
  · rw [← join_pieces, hpieces]
    simp [render, String.append_assoc]
  · rw [scan_bound hs h, hexpand, fuse_append_cons hmark]
  · rw [join_fuse, List.map_append, String.join_append]
  · rw [join_fuse, List.map_append, String.join_append]
  · rw [count_fuse, List.count_append, count_expandAll, hopening, Nat.add_assoc]

/-- What binding a text by position promises. -/
structure Positional (text : String) (parameters : ParameterSet) : Prop where
  /-- It succeeds exactly when the text can be scanned and all of its names are taken. -/
  succeeds : (∃ bound, bind text parameters = .ok bound) ↔
    ∃ names, placeholders text = .ok names ∧ ∀ name ∈ names, parameters.contains name = true
  /-- A text that cannot be scanned fails as it does there. -/
  unscanned : ∀ failure, scan text = .error failure → bind text parameters = .error failure
  /-- Otherwise the first name that is not taken is reported. -/
  missing : ∀ known name others, placeholders text = .ok (known ++ name :: others) →
    (∀ name ∈ known, parameters.contains name = true) → parameters.contains name = false →
    bind text parameters = .error (.unknownParameter name)
  /-- The values are those of the placeholders in order: a scalar once, the items of a list. -/
  values : ∀ bound names, bind text parameters = .ok bound → placeholders text = .ok names →
    bound.values = names.flatMap fun name => (parameters.value? name).elim [] scalars
  /-- The bound text can be scanned. It has no placeholder, and a bare mark more for each value. -/
  rescans : ∀ bound segments, bind text parameters = .ok bound → scan text = .ok segments →
    ∃ rescanned, scan bound.sql = .ok rescanned ∧
      (∀ segment ∈ rescanned, segment.name? = none) ∧
      rescanned.count (sql "?") = segments.count (sql "?") + bound.values.length
  /-- Each mark stands where the placeholder of its value stood. -/
  aligned : ∀ bound, bind text parameters = .ok bound → ∀ i item, bound.values[i]? = some item →
    Aligned text parameters bound i item
  /-- Binding again changes nothing and finds no values. -/
  stable : ∀ bound, bind text parameters = .ok bound → ∀ others,
    bind bound.sql others = .ok ⟨bound.sql, []⟩

/-- Binding keeps its promise for every text and every set of parameters. -/
theorem bind_positional (text : String) (parameters : ParameterSet) :
    Positional text parameters where
  succeeds := by
    constructor
    · rintro ⟨bound, h⟩
      obtain ⟨segments, hs, hv, -⟩ := bind_eq_ok h
      exact ⟨_, placeholders_eq_ok.mpr ⟨segments, hs, rfl⟩, hv⟩
    · rintro ⟨names, hn, hv⟩
      obtain ⟨segments, hs, rfl⟩ := placeholders_eq_ok.mp hn
      exact ⟨_, bind_of_scan hs hv⟩
  unscanned := by
    intro failure hs
    rw [bind, hs]
  missing := by
    intro known name others hn hknown hname
    obtain ⟨segments, hs, hsplit⟩ := placeholders_eq_ok.mp hn
    have hfind : (known ++ name :: others).find? (fun name => !parameters.contains name) =
        some name := by
      have hnone : known.find? (fun name => !parameters.contains name) = none :=
        List.find?_eq_none.mpr fun name hn => by simp [hknown name hn]
      rw [List.find?_append, hnone, Option.none_or, List.find?_cons, hname]
      rfl
    rw [bind, hs]
    simp only [ofSegments_eq, hsplit, hfind]
  values := by
    intro bound names h hn
    obtain ⟨segments, hs, rfl⟩ := placeholders_eq_ok.mp hn
    obtain ⟨found, hfound, -, rfl⟩ := bind_eq_ok h
    obtain rfl : segments = found := Except.ok.inj (hs.symm.trans hfound)
    exact flatMap_values segments
  rescans := by
    intro bound segments h hs
    refine ⟨_, scan_bound hs h, name?_fuse_expandAll, ?_⟩
    obtain ⟨found, hfound, -, rfl⟩ := bind_eq_ok h
    obtain rfl : segments = found := Except.ok.inj (hs.symm.trans hfound)
    rw [count_fuse, count_expandAll]
  aligned := fun _ h _ _ => aligned_of_bind h
  stable := by
    intro bound h others
    obtain ⟨segments, hs, -, hbound⟩ := bind_eq_ok h
    have hnames : ∀ segment ∈ fuse (expandAll parameters segments), segment.name? = none :=
      name?_fuse_expandAll
    have hnone : (fuse (expandAll parameters segments)).filterMap name? = [] :=
      List.filterMap_eq_nil_iff.mpr hnames
    rw [bind_of_scan (scan_bound hs h) (by simp [hnone]), expandAll_eq_self hnames, join_fuse,
      flatMap_values, hnone, hbound]
    rfl

end AbstractSql.Segment
