import AbstractSql.NameSupply

/-!
# Fresh names

A generated parameter name has not been issued or reserved before. The search for it tries as many
numbers as there are issued names and one more, and all of these give different names.
-/

namespace AbstractSql.NameSupply

/-- A search that ends at a taken name has found every number on its way taken. -/
theorem firstFree_taken {issued : List String} {base : String} {tries number : Nat}
    (h : base ++ toString (firstFree issued base tries number) ∈ issued) :
    ∀ i ≤ tries, base ++ toString (number + i) ∈ issued := by
  induction tries generalizing number with
  | zero =>
    intro i hi
    obtain rfl : i = 0 := by omega
    exact h
  | succ tries ih =>
    unfold firstFree at h
    by_cases ht : issued.contains (base ++ toString number) = true
    · rw [if_pos ht] at h
      intro i hi
      cases i with
      | zero => exact List.contains_iff_mem.mp ht
      | succ i =>
        have hn : number + (i + 1) = number + 1 + i := by omega
        rw [hn]
        exact ih h i (by omega)
    · rw [if_neg ht] at h
      exact absurd (List.contains_iff_mem.mpr h) ht

/-- Different numbers make different names. -/
theorem numbered_injective (base : String) {m n : Nat} (h : base ++ toString m = base ++ toString n) :
    m = n := by
  have hl := congrArg String.toList h
  rw [String.toList_append, String.toList_append, List.append_cancel_left_eq,
    Nat.toString_eq_ofList_toDigits, Nat.toString_eq_ofList_toDigits, String.toList_ofList,
    String.toList_ofList] at hl
  have hd := congrArg (fun digits => Nat.ofDigitChars 10 digits 0) hl
  simpa only [Nat.ofDigitChars_ten_toDigits] using hd

/-- A generated name has not been issued before. Otherwise all the numbers tried would give issued
names, one more than there are. -/
theorem nextParameter_fresh (names : NameSupply) (base : String) :
    (names.nextParameter base).1 ∉ names.issued := by
  intro h
  have hall := firstFree_taken h
  let tried := (List.range (names.issued.length + 1)).map fun i =>
    base ++ toString (names.sequence + 1 + i)
  have hd : tried.Nodup := by
    refine List.Pairwise.map _ (fun i j hij he => hij ?_) List.nodup_range
    have := numbered_injective base he
    omega
  have hs : tried ⊆ names.issued := by
    intro name hn
    obtain ⟨i, hi, rfl⟩ := List.mem_map.mp hn
    exact hall i (by have := List.mem_range.mp hi; omega)
  have hl := hd.length_le_of_subset hs
  rw [List.length_map, List.length_range] at hl
  omega

/-- A generated name is issued. -/
@[simp] theorem nextParameter_issued (names : NameSupply) (base : String) :
    (names.nextParameter base).2.issued = (names.nextParameter base).1 :: names.issued := rfl

/-- The search for a free number goes upwards. -/
theorem le_firstFree (issued : List String) (base : String) (tries number : Nat) :
    number ≤ firstFree issued base tries number := by
  induction tries generalizing number with
  | zero => exact Nat.le_refl number
  | succ tries ih =>
    unfold firstFree
    split
    · exact Nat.le_of_succ_le (ih (number + 1))
    · exact Nat.le_refl number

/-- The number in a generated name is above the last one. -/
theorem sequence_nextParameter (names : NameSupply) (base : String) :
    names.sequence < (names.nextParameter base).2.sequence :=
  le_firstFree names.issued base names.issued.length (names.sequence + 1)

/-- Generated names do not depend on the aliases. -/
@[simp] theorem resetAliases_nextParameter (names : NameSupply) (base : String) :
    names.resetAliases.nextParameter base =
      ((names.nextParameter base).1, (names.nextParameter base).2.resetAliases) := rfl

/-- Exactly the given name is reserved. -/
theorem mem_reserve {names : NameSupply} {name other : String} :
    other ∈ (names.reserve name).issued ↔ other = name ∨ other ∈ names.issued := by
  unfold reserve
  split
  · next h =>
    constructor
    · exact .inr
    · rintro (rfl | ho)
      · exact List.contains_iff_mem.mp h
      · exact ho
  · exact List.mem_cons

/-- Exactly the given names are reserved. -/
theorem mem_reserveAll {names : NameSupply} {reserved : List String} {other : String} :
    other ∈ (names.reserveAll reserved).issued ↔ other ∈ reserved ∨ other ∈ names.issued := by
  induction reserved generalizing names with
  | nil => simp [reserveAll]
  | cons name rest ih =>
    have hr : names.reserveAll (name :: rest) = (names.reserve name).reserveAll rest := rfl
    rw [hr, ih, mem_reserve, List.mem_cons, or_left_comm, or_assoc]

/-- Reserving a name does not touch the aliases. -/
theorem resetAliases_reserve (names : NameSupply) (name : String) :
    names.resetAliases.reserve name = (names.reserve name).resetAliases := by
  unfold reserve resetAliases
  split <;> rfl

/-- Reserving names does not touch the aliases. -/
@[simp] theorem resetAliases_reserveAll (names : NameSupply) (reserved : List String) :
    names.resetAliases.reserveAll reserved = (names.reserveAll reserved).resetAliases := by
  induction reserved generalizing names with
  | nil => rfl
  | cons name rest ih =>
    have hr : ∀ s : NameSupply, s.reserveAll (name :: rest) = (s.reserve name).reserveAll rest :=
      fun _ => rfl
    rw [hr, hr, resetAliases_reserve, ih]

/-- Reserving names leaves the next aliases as they are. -/
theorem aliases_reserveAll (names : NameSupply) (reserved : List String) :
    (names.reserveAll reserved).aliases = names.aliases ∧
      (names.reserveAll reserved).closures = names.closures := by
  induction reserved generalizing names with
  | nil => exact ⟨rfl, rfl⟩
  | cons name rest ih =>
    have hr : names.reserveAll (name :: rest) = (names.reserve name).reserveAll rest := rfl
    have hone : (names.reserve name).aliases = names.aliases ∧
        (names.reserve name).closures = names.closures := by
      unfold reserve
      split <;> exact ⟨rfl, rfl⟩
    rw [hr, (ih _).1, (ih _).2]
    exact hone

/-- Reserving names does not change the number in the names. -/
theorem sequence_reserveAll (names : NameSupply) (reserved : List String) :
    (names.reserveAll reserved).sequence = names.sequence := by
  induction reserved generalizing names with
  | nil => rfl
  | cons name rest ih =>
    have hr : names.reserveAll (name :: rest) = (names.reserve name).reserveAll rest := rfl
    have hone : (names.reserve name).sequence = names.sequence := by
      unfold reserve
      split <;> rfl
    rw [hr, ih, hone]

/-- Starting the aliases again twice is starting them again. -/
@[simp] theorem resetAliases_resetAliases (names : NameSupply) :
    names.resetAliases.resetAliases = names.resetAliases := rfl

end AbstractSql.NameSupply
