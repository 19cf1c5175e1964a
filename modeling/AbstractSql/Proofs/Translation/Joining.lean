import AbstractSql.Proofs.Translation.Effect
import AbstractSql.Proofs.Translation.Embedding

/-!
# Set operations, joins and closures of two translations

The steps that extend a translation by another query. Each adds the twins of that query at the
places where the step writes it.
-/

namespace AbstractSql

open Segment Identifier Translating

variable {ts us : List Twin} {n n' out out' : Translation} {q : Query} (catalog : Catalog)

/-- Adding alike set operations keeps the clauses alike. -/
theorem Nested.combined {tableAlias operator : String} (k : Nested q us n n')
    (h : out.Twins ts out') (ha : Plain tableAlias) (ho : Plain operator) (source : Query) :
    ((({ out with combines := out.combines
        ++ [operator ++ " " ++ combineSelect catalog source q tableAlias n] }).absorb n)).Twins
      (ts ++ us.map (Twin.move .combined))
      ((({ out' with combines := out'.combines
        ++ [operator ++ " " ++ combineSelect catalog source q tableAlias n'] }).absorb n')) := by
  have hselect := k.combineSelect_alike catalog ha source q
  generalize hm : marksAt .statement us ∪ marksAt .condition us ∪ marksAt .joins us = marks at hselect
  have hnew : Translation.Twins (ts ++ [⟨.combines, marks⟩])
      { out with combines := out.combines
        ++ [operator ++ " " ++ combineSelect catalog source q tableAlias n] }
      { out' with combines := out'.combines
        ++ [operator ++ " " ++ combineSelect catalog source q tableAlias n'] } := by
    refine ⟨h.text, h.statement.congr (by simp), h.condition.congr (by simp), h.hasOr, h.sorts,
      h.joins.congr (by simp), ?_, h.definitions.congr (by simp), h.extras.congr (by simp),
      h.allowJoin, h.closure⟩
    refine (h.combines.append (.single ?_)).congr (by simp : _ ∪ marks = _)
    rw [String.append_assoc, String.append_assoc]
    exact .plain_append ho (.plain_append (by decide) hselect)
  refine (hnew.absorb k.twins).congr fun place hp => ?_
  subst hm
  cases place <;> simp [marksAt_move, Place.defined, Place.combined] at hp ⊢

/-- The operator of a set operation is plain. -/
theorem plain_native {kind : SetOperator} {operator : String} (h : kind.native = .ok operator) :
    Plain operator := by
  unfold SetOperator.native at h
  split at h
  · obtain rfl := Except.ok.inj h
    cases kind <;> decide
  · exact absurd h (by simp)

/-- Where conditions of a joined query go that the join does not test. -/
def Place.lifted (derived tested : Bool) : Place → Place
  | condition => if derived || tested then lost else condition
  | extras => if derived then lost else condition
  | _ => lost

/-- Lifting alike conditions out of a join keeps the clauses alike. -/
theorem Nested.liftConditions {join : Join} (k : Nested join.query us n n')
    (h : out.Twins ts out') :
    (Translating.liftConditions join n out).Twins
      (ts ++ us.map (Twin.move (.lifted join.query.hasArms
        (join.query.keepsJoins && join.kind != .cross))))
      (Translating.liftConditions join n' out') := by
  have hc := k.twins.condition
  have hempty := hc.eq_empty_iff
  unfold Translating.liftConditions testsInJoin
  rw [← k.twins.hasCombine, ← k.twins.allowJoin, k.hasCombine, k.allowJoin]
  cases hd : join.query.hasArms with
  | true =>
    simp only [if_true]
    refine h.congr fun place hp => ?_
    cases place <;> simp [marksAt_move, Place.lifted] at hp ⊢
  | false =>
    simp only [Bool.false_eq_true, if_false, Bool.not_false, Bool.true_and, Bool.and_assoc]
    generalize (join.query.keepsJoins && join.kind != .cross) = tested
    have hown : Translation.Twins
        (ts ++ [⟨.condition, if tested then ∅ else marksAt .condition us⟩])
        (if (n.condition != "" && !(n.condition != "" && tested)) = true then
          out.andCondition n.condition else out)
        (if (n'.condition != "" && !(n'.condition != "" && tested)) = true then
          out'.andCondition n'.condition else out') := by
      cases tested with
      | true =>
        simp only [Bool.and_true, Bool.and_not_self, Bool.false_eq_true, if_false, if_true]
        refine h.congr fun place _ => ?_
        simp
      | false =>
        simp only [Bool.and_false, Bool.not_false, Bool.and_true, Bool.false_eq_true, if_false,
          bne_iff_ne, ne_eq]
        by_cases hn : n.condition = ""
        · rw [if_neg (not_not_intro hn), if_neg (not_not_intro (hempty.mp hn))]
          refine h.congr fun place _ => ?_
          simp [k.twins.condition_eq_empty hn]
        · rw [if_pos hn, if_pos fun he => hn (hempty.mpr he)]
          exact h.andCondition hc
    refine (hown.foldl_andCondition k.twins.extras).congr fun place hp => ?_
    cases tested <;> cases place <;> simp [marksAt_move, Place.lifted] at hp ⊢

/-- The joined rows of alike queries. -/
theorem Nested.joinTarget_alike {join : Join} {joinAlias targetAlias : String}
    (k : Nested join.query us n n') (hj : Plain joinAlias) (ht : Plain targetAlias) :
    Alike (if join.query.hasArms then
        marksAt .joins us ∪ marksAt .condition us ∪ marksAt .combines us else ∅)
      (joinTarget catalog join n joinAlias targetAlias)
      (joinTarget catalog join n' joinAlias targetAlias) := by
  unfold joinTarget
  rw [← k.twins.hasCombine, k.hasCombine]
  cases join.query.hasArms with
  | true => exact combinedSource_alike catalog hj ht join.query k.twins
  | false => exact literal_aliased hj _

/-- Join clauses with alike rows and alike conditions. -/
theorem joinText_alike {marks others : Marks} {target target' : String} {ss ss' : List String}
    (join : Join) (h : Alike marks target target') (k : AlikeAll others ss ss') :
    Alike (marks ∪ others) (joinText join target ss) (joinText join target' ss') := by
  have hkind : Plain join.kind.sql := by cases join.kind <;> decide
  have hi : Alike others (String.intercalate " AND " ss) (String.intercalate " AND " ss') :=
    k.intercalate (by decide) (delimits_of_parts (by decide)) (by decide)
  unfold joinText
  cases ss with
  | nil =>
    obtain rfl := k.eq_nil_iff.mp rfl
    rw [k.marks_eq_empty, Set.union_empty]
    simp only [String.append_assoc, String.append_empty]
    exact .plain_append hkind (.plain_append (by decide) h)
  | cons s ss =>
    cases ss' with
    | nil => exact absurd (k.eq_nil_iff.mpr rfl) (by simp)
    | cons s' ss' =>
      simp only [String.append_assoc]
      exact .plain_append hkind (.plain_append (by decide)
        (h.append (.plain_append (by decide) hi) (delimits_append (by decide) _)))

/-- Where a written join puts what the joined query binds; its own joins and definitions follow
later. -/
def Place.written (derived tested : Bool) : Place → Place
  | condition => if derived || tested then joins else condition
  | joins | combines => if derived then joins else lost
  | extras => if derived then lost else condition
  | _ => lost

/-- Writing alike joins keeps the clauses alike. -/
theorem Nested.writeJoin (source : String) {join : Join} {tableAlias joinAlias targetAlias : String}
    (k : Nested join.query us n n') (h : out.Twins ts out') (hout : out.allowJoin = true)
    (ha : Plain tableAlias) (hj : Plain joinAlias) (ht : Plain targetAlias) :
    (Translating.writeJoin catalog source tableAlias join joinAlias targetAlias n out).Twins
      (ts ++ us.map (Twin.move (.written join.query.hasArms
        (join.query.keepsJoins && join.kind != .cross))))
      (Translating.writeJoin catalog source tableAlias join joinAlias targetAlias n' out') := by
  have hl := k.liftConditions h
  have hlout : (Translating.liftConditions join n out).allowJoin = true :=
    (congrArg Shape.allowJoin (liftConditions_shape join n out)).trans hout
  have htarget := k.joinTarget_alike catalog hj ht
  have htests : testsInJoin join n' = testsInJoin join n := by
    have he := k.twins.condition.eq_empty_iff
    have hb : (n'.condition != "") = (n.condition != "") := by
      rw [Bool.eq_iff_iff, bne_iff_ne, bne_iff_ne, ne_eq, ne_eq, he]
    rw [testsInJoin, testsInJoin, ← k.twins.hasCombine, ← k.twins.allowJoin, hb]
  have htested : AlikeAll (if testsInJoin join n then marksAt .condition us else ∅)
      (if testsInJoin join n then [n.condition] else [])
      (if testsInJoin join n then [n'.condition] else []) := by
    split
    · exact .single k.twins.condition
    · exact .nil
  have hcolumns : AlikeAll ∅ (joinConditions catalog source join tableAlias targetAlias)
      (joinConditions catalog source join tableAlias targetAlias) :=
    alikeAll_literal (literal_joinConditions ha ht catalog source join)
  have htext := joinText_alike join htarget (hcolumns.append htested)
  unfold Translating.writeJoin
  dsimp only
  rw [htests]
  refine (hl.addJoins hlout (.single htext)).congr fun place hp => ?_
  have hmarks : (if testsInJoin join n = true then marksAt .condition us else ∅) =
      if (!join.query.hasArms && (join.query.keepsJoins && join.kind != .cross)) = true then
        marksAt .condition us else ∅ := by
    unfold testsInJoin
    rw [k.hasCombine, k.allowJoin]
    by_cases hc : n.condition = ""
    · simp [k.twins.condition_eq_empty hc]
    · simp [hc, Bool.and_assoc]
  rw [hmarks]
  generalize (join.query.keepsJoins && join.kind != .cross) = tested
  cases join.query.hasArms <;> cases tested <;> cases place <;>
    simp [marksAt_move, Place.lifted, Place.written, Set.union_comm,
      Set.union_left_comm] at hp ⊢

/-- Alike conditions for the outer statement keep the clauses alike. -/
theorem addExtra_twins (h : out.Twins ts out') (k : n.Twins us n') :
    (addExtra n out).Twins (ts ++ us.map (Twin.move .required)) (addExtra n' out') := by
  have hkept : Translation.Twins (ts ++ [⟨.extras, marksAt .condition us⟩])
      (if n.condition = "" then out else { out with joinExtras := out.joinExtras ++ [n.condition] })
      (if n'.condition = "" then out'
        else { out' with joinExtras := out'.joinExtras ++ [n'.condition] }) := by
    by_cases hn : n.condition = ""
    · rw [if_pos hn, if_pos (k.condition.eq_empty_iff.mp hn)]
      refine h.congr fun place _ => ?_
      simp [k.condition_eq_empty hn]
    · rw [if_neg hn, if_neg fun he => hn (k.condition.eq_empty_iff.mpr he)]
      exact ⟨h.text, h.statement.congr (by simp), h.condition.congr (by simp), h.hasOr, h.sorts,
        h.joins.congr (by simp), h.combines.congr (by simp), h.definitions.congr (by simp),
        (h.extras.append (.single k.condition)).congr (by simp), h.allowJoin, h.closure⟩
  refine (hkept.absorb k).congr fun place hp => ?_
  cases place <;> simp [marksAt_move, Place.defined, Place.required] at hp ⊢

/-- Where the joins of a joined query go. -/
def Place.followed (derived : Bool) : Place → Place
  | joins => if derived then lost else joins
  | _ => lost

/-- Alike joins that follow a join keep the clauses alike. -/
theorem Nested.liftJoins (k : Nested q us n n') (h : out.Twins ts out')
    (hout : out.allowJoin = true) :
    (Translating.liftJoins n out).Twins (ts ++ us.map (Twin.move (.followed q.hasArms)))
      (Translating.liftJoins n' out') := by
  unfold Translating.liftJoins
  rw [← k.twins.hasCombine, ← k.twins.allowJoin, k.hasCombine]
  cases q.hasArms with
  | true =>
    simp only [Bool.not_true, Bool.false_and, Bool.false_eq_true, if_false]
    refine h.congr fun place hp => ?_
    cases place <;> simp [marksAt_move, Place.followed] at hp ⊢
  | false =>
    simp only [Bool.not_false, Bool.true_and]
    by_cases hj : n.allowJoin = true
    · rw [if_pos hj, if_pos hj]
      have hj' : n'.allowJoin = true := k.twins.allowJoin ▸ hj
      have hjoins := k.twins.joins
      simp only [Translation.ownJoins, hj, hj', if_true] at hjoins
      refine (h.addJoins hout hjoins).congr fun place hp => ?_
      cases place <;> simp [marksAt_move, Place.followed] at hp ⊢
    · rw [if_neg hj, if_neg hj]
      have hempty := k.twins.joins_eq_empty (Bool.not_eq_true _ ▸ hj)
      refine h.congr fun place hp => ?_
      cases place <;> simp [marksAt_move, Place.followed, hempty] at hp ⊢

/-- Adding joins of alike queries keeps the clauses alike. The required condition, when there is
one, binds after the joined query. -/
theorem Nested.joined {join : Join} {extended extended' : Translation} {es : List Twin} (k : Nested join.query us n n')
    (hout : extended.allowJoin = true)
    (h : extended.Twins (ts ++ us.map (Twin.move (.written join.query.hasArms
        (join.query.keepsJoins && join.kind != .cross))) ++ es) extended') :
    ((Translating.liftJoins n extended).absorb n).Twins
      (ts ++ (us.map (Twin.move (join.query.joinedPlace join.kind)) ++ es))
      ((Translating.liftJoins n' extended').absorb n') := by
  refine ((k.liftJoins h hout).absorb k.twins).congr fun place hp => ?_
  unfold Query.joinedPlace
  generalize (join.query.keepsJoins && join.kind != .cross) = tested
  cases join.query.hasArms <;> cases tested <;> cases place <;>
    simp [marksAt_move, Place.written, Place.followed, Place.defined, Place.joined, Set.union_comm,
      Set.union_left_comm] at hp ⊢

/-- Place once the conditions on joined rows are part of the condition. -/
def Place.merged : Place → Place
  | extras => condition
  | place => place

/-- Making the conditions on joined rows part of the condition keeps the clauses alike. -/
theorem Translation.Twins.mergeJoinExtras {t t' : Translation} (h : t.Twins ts t') :
    t.mergeJoinExtras.Twins (ts.map (Twin.move .merged)) t'.mergeJoinExtras := by
  have hbare : Translation.Twins (ts.map (Twin.move fun place =>
        if place = .extras then .lost else place))
      { t with joinExtras := [] } { t' with joinExtras := [] } :=
    ⟨h.text, h.statement.congr (by simp [marksAt_move]), h.condition.congr (by simp [marksAt_move]),
      h.hasOr, h.sorts, h.joins.congr (by simp [marksAt_move]),
      h.combines.congr (by simp [marksAt_move]), h.definitions.congr (by simp [marksAt_move]),
      AlikeAll.nil.congr (by simp [marksAt_move]), h.allowJoin, h.closure⟩
  refine (hbare.foldl_andCondition h.extras).congr fun place hp => ?_
  cases place <;> simp [marksAt_move, Place.merged] at hp ⊢

/-- Requiring more conditions does not depend on whether joins are written, and changes none. -/
theorem foldl_andCondition_joins (extras : List String) (t : Translation) (allow : Bool) :
    extras.foldl Translation.andCondition { t with allowJoin := allow } =
        { extras.foldl Translation.andCondition t with allowJoin := allow } ∧
      (extras.foldl Translation.andCondition t).joins = t.joins := by
  induction extras generalizing t with
  | nil => exact ⟨rfl, rfl⟩
  | cons extra rest ih =>
    have hone : ({ t with allowJoin := allow }).andCondition extra =
        { t.andCondition extra with allowJoin := allow } ∧
          (t.andCondition extra).joins = t.joins := by
      unfold Translation.andCondition
      split
      · exact ⟨rfl, rfl⟩
      · split
        · exact ⟨rfl, rfl⟩
        · split <;> exact ⟨rfl, rfl⟩
    rw [List.foldl_cons, List.foldl_cons, hone.1, (ih _).1, (ih _).2]
    exact ⟨rfl, hone.2⟩

/-- The table of a closure has plain names. -/
theorem plain_nextClosure (names : NameSupply) :
    Plain names.nextClosure.1.name ∧ Plain names.nextClosure.1.shortName :=
  ⟨plain_append (by decide) (plain_number _), plain_append (by decide) (plain_number _)⟩

/-- The select of a closure is literal. -/
theorem literal_closureSelect {tableAlias : String} (ha : Plain tableAlias) (entity : String)
    (closure : Closure) : Literal (closureSelect catalog entity tableAlias closure) := by
  have hq := literal_aliased ha (catalog.table entity)
  unfold closureSelect
  simp only [String.append_assoc] at hq ⊢
  exact .plain_append (by decide) (.literal_append (literal_under ha _)
    (.plain_append (by decide) (.literal_append (literal_under ha _)
      (.plain_append (by decide) hq) (delimits_append (by decide) _)))
    (delimits_append (by decide) _))

/-- The step of a closure is literal. -/
theorem literal_closureStep {tableAlias : String} {table : ClosureTable} (ha : Plain tableAlias)
    (hs : Plain table.shortName) (entity : String) (closure : Closure) :
    Literal (closureStep catalog entity tableAlias closure table) := by
  have hboth : ∀ left right : String,
      Literal (under tableAlias left ++ "=" ++ under table.shortName right) := by
    intro left right
    rw [String.append_assoc]
    exact .literal_append (literal_under ha left)
      (.plain_append (by decide) (literal_under hs right)) (delimits_append (by decide) _)
  unfold closureStep
  cases closure.direction <;> exact hboth _ _

/-- Definitions of closure tables over alike first rows. -/
theorem closureDefinition_alike {tableAlias : String} {table : ClosureTable}
    {ss ss' : List String} {s s' : String} {marks others : Marks} (ha : Plain tableAlias)
    (hn : Plain table.name) (hs : Plain table.shortName) (entity : String) (closure : Closure)
    (hj : AlikeAll marks ss ss') (hc : Alike others s s') :
    Alike (marks ∪ others) (closureDefinition catalog entity tableAlias closure table ss s)
      (closureDefinition catalog entity tableAlias closure table ss' s') := by
  have hselect := literal_closureSelect catalog ha entity closure
  have hstep := literal_closureStep catalog ha hs entity closure
  have hi : Alike marks (String.intercalate " " ss) (String.intercalate " " ss') :=
    hj.intercalate (by decide) (delimits_of_parts (by decide)) (by decide)
  have hanchor := (AlikeAll.cons hselect (.cons hi (.single hc))).joinParts
  rw [Set.empty_union] at hanchor
  unfold closureDefinition
  simp only [String.append_assoc]
  refine .plain_append hn (.plain_append (by decide) (hanchor.append_literal ?_
    (delimits_append (by decide) _)))
  refine .plain_append (by decide) (.literal_append hselect (.plain_append (by decide) ?_)
    (delimits_append (by decide) _))
  refine .literal_append (.quote _) (.plain_append (by decide) (.plain_append hs ?_))
    (delimits_append (by decide) _)
  exact .plain_append (by decide) (hstep.append_plain (by decide) (by decide))

/-- The test for membership in a closure table is literal. -/
theorem literal_closureTest {tableAlias : String} {table : ClosureTable} (ha : Plain tableAlias)
    (hs : Plain table.shortName) (entity : String) (closure : Closure) :
    Literal (closureTest catalog entity tableAlias closure table) := by
  have hq := literal_aliased hs table.name
  unfold closureTest
  simp only [String.append_assoc] at hq ⊢
  refine .literal_append (literal_under ha _) (.plain_append (by decide)
    (.literal_append (literal_under hs _) (.plain_append (by decide) ?_)
      (delimits_append (by decide) _))) (delimits_append (by decide) _)
  exact .literal_append (.quote _) (.plain_append (by decide) (.plain_append hs
    (.plain (by decide)))) (delimits_append (by decide) _)

/-- Closing alike rows keeps the clauses alike. The condition and the joins are found in the new
definition. -/
theorem Translation.Twins.closeRows {t t' : Translation} {tableAlias : String}
    {table : ClosureTable} (h : t.Twins ts t') (hj : t.allowJoin = true) (ha : Plain tableAlias)
    (hn : Plain table.name) (hs : Plain table.shortName) (entity : String) (closure : Closure) :
    (Translating.closeRows catalog entity tableAlias closure table t).Twins
      (ts.map (Twin.move .closed))
      (Translating.closeRows catalog entity tableAlias closure table t') := by
  have hj' : t'.allowJoin = true := h.allowJoin ▸ hj
  have hm := h.mergeJoinExtras
  have hjoins := h.joins
  simp only [Translation.ownJoins, hj, hj', if_true] at hjoins
  have hbody : ∀ t : Translation, ({ t with allowJoin := false }).mergeJoinExtras =
      { t.mergeJoinExtras with allowJoin := false } ∧ t.mergeJoinExtras.joins = t.joins := fun t =>
    foldl_andCondition_joins t.joinExtras { t with joinExtras := [] } false
  have hdefinition := closureDefinition_alike catalog ha hn hs entity closure hjoins hm.whereClause
  have htest := literal_closureTest catalog ha hs entity closure
  unfold Translating.closeRows
  rw [(hbody t).1, (hbody t').1]
  dsimp only
  rw [(hbody t).2, (hbody t').2]
  exact ⟨hm.text, hm.statement.congr (by simp [marksAt_move, Place.merged, Place.closed]),
    htest.congr (by simp [marksAt_move, Place.closed]), rfl, hm.sorts,
    AlikeAll.nil.congr (by simp [marksAt_move, Place.closed]),
    hm.combines.congr (by simp [marksAt_move, Place.merged, Place.closed]),
    (hm.definitions.append (.single hdefinition)).congr (by
      simp [marksAt_move, Place.merged, Place.closed, Set.union_comm, Set.union_left_comm]),
    hm.extras.congr (by simp [marksAt_move, Place.merged, Place.closed]), rfl, rfl⟩

end AbstractSql
