import AbstractSql.Json.Record
import Mathlib.Data.List.Nodup

/-!
# Reading back what is written

A structure that is written with all its parts, each under its own name, is read part by part.
Lists, optional parts and numbers are read back when what they hold is. What stands inside a value
has a smaller height.
-/

namespace AbstractSql

namespace JsonRecord

variable {α β : Type} {r : JsonRecord} {name : String}

/-- No key is there twice when all keys are distinct. -/
theorem occurrences_le_one {members : List (String × Json)} (h : (members.map Prod.fst).Nodup)
    (name : String) : occurrences members name ≤ 1 := by
  have hcount : occurrences members name = (members.map Prod.fst).count name := by
    rw [occurrences, List.count, List.countP_map, List.countP_eq_length_filter]
    rfl
  rw [hcount]
  exact List.nodup_iff_count_le_one.mp h name

/-- An object that has each of the names once, and no other, is taken apart into its members. -/
theorem exists_of?_object (d : Dialect) {names : List String} {members : List (String × Json)}
    (hkeys : members.map Prod.fst = names) (hnames : names.Nodup) :
    ∃ r, of? d names (.object members) = some r ∧ ∀ key, r.part? key = members.lookup key := by
  subst hkeys
  have honce : ((members.map Prod.fst).all fun key => decide (occurrences members key ≤ 1)) =
      true := by
    rw [List.all_eq_true]
    exact fun key _ => decide_eq_true (occurrences_le_one hnames key)
  -- What is not among the names is no key either, so asking for it finds nothing in both readings.
  have hparts : (fun key => if (members.map Prod.fst).contains key then members.lookup key
      else none) = fun key => members.lookup key := by
    funext key
    split
    · rfl
    · next h =>
      refine (List.lookup_eq_none_iff.mpr fun member hmem => bne_iff_ne.mpr ?_).symm
      rintro rfl
      exact h (List.contains_iff_mem.mpr (List.mem_map_of_mem hmem))
  refine ⟨⟨fun key => members.lookup key⟩, ?_, fun _ => rfl⟩
  rw [of?, if_pos honce, hparts]

/-- A part that is written is what it is read as. -/
theorem required_eq {json : Json} (h : r.part? name = some json) (decode : Json → Option α) :
    r.required name decode = decode json := by
  rw [required, h, Option.bind_some]

/-- A part that is written does not take the value for a missing one. -/
theorem defaulted_eq {json : Json} (h : r.part? name = some json) (value : α)
    (decode : Json → Option α) : r.defaulted name value decode = decode json := by
  rw [defaulted, h]

/-- An optional part is read back when what it holds is, and when that is not written as null. -/
theorem optional_eq {encode : α → Json} {decode : Json → Option β} {g : α → β} {part : Option α}
    (h : r.part? name = some (.optional encode part)) (hnull : ∀ a, encode a ≠ .null)
    (hread : ∀ a ∈ part, decode (encode a) = some (g a)) :
    r.optional name decode = some (part.map g) := by
  cases part with
  | none => rw [optional, h, Json.optional, Option.map_none]
  | some a =>
    have hpart : r.part? name = some (encode a) := h
    rw [optional, hpart]
    split
    · next hmissing => exact absurd hmissing (Option.some_ne_none _)
    · next hnone => exact absurd (Option.some.inj hnone) (hnull a)
    · next json hjson =>
      obtain rfl := Option.some.inj hjson
      rw [hread a rfl, Option.map_some, Option.map_some]

/-- An optional part is the same again when what it holds is. -/
theorem optional_eq_self {encode : α → Json} {decode : Json → Option α} {part : Option α}
    (h : r.part? name = some (.optional encode part)) (hnull : ∀ a, encode a ≠ .null)
    (hread : ∀ a, decode (encode a) = some a) : r.optional name decode = some part := by
  have heq : r.optional name decode = some (part.map id) :=
    optional_eq h hnull fun a _ => hread a
  rwa [Option.map_id] at heq

end JsonRecord

namespace Json

variable {α β : Type}

/-- A list is read back when its members are. -/
theorem toList?_list {encode : α → Json} {decode : Json → Option β} {g : α → β} {items : List α}
    (h : ∀ a ∈ items, decode (encode a) = some (g a)) :
    (list encode items).toList? decode = some (items.map g) := by
  rw [list, toList?, List.mapM_map]
  induction items with
  | nil => rfl
  | cons a rest ih =>
    have hfirst := h a List.mem_cons_self
    have hrest := ih fun b hb => h b (List.mem_cons_of_mem a hb)
    rw [List.mapM_cons, Function.comp_apply, hfirst, hrest]
    rfl

/-- A list is the same again when its members are. -/
theorem toList?_list_self (encode : α → Json) {decode : Json → Option α}
    (h : ∀ a, decode (encode a) = some a) (items : List α) :
    (list encode items).toList? decode = some items := by
  have heq : (list encode items).toList? decode = some (items.map id) :=
    toList?_list fun a _ => h a
  rwa [List.map_id] at heq

/-! ## Numbers -/

/-- An integer of 64 bits is read back. -/
theorem toInt?_ofInt (n : Int64) : (JsonNumber.ofInt n).toInt? = some n := by
  unfold JsonNumber.ofInt
  split
  · rfl
  · next h =>
    have hnonneg : 0 ≤ n.toInt := by
      rw [Int64.lt_iff_toInt_lt, Int64.toInt_zero] at h
      exact Int.not_lt.mp h
    have hcast : (n.toInt.toNat : Int) = n.toInt := Int.toNat_of_nonneg hnonneg
    have hsize : n.toInt.toNat < UInt64.size := by
      have hlt := n.toInt_lt
      rw [UInt64.size]
      omega
    have hword : n.toInt.toNat.toUInt64.toNat = n.toInt.toNat := UInt64.toNat_ofNat_of_lt' hsize
    have hle : (n.toInt.toNat : Int) ≤ Int64.maxValue.toInt := hcast ▸ n.toInt_le
    rw [JsonNumber.toInt?, hword, if_pos hle, ← Int64.ofInt_eq_ofNat, hcast, Int64.ofInt_toInt]

/-- A natural number below a bound is read back. -/
theorem toNat?_nat {bound : Nat} {n : UInt64} (h : n.toNat < bound) :
    (nat n).toNat? bound = some n.toNat := by
  rw [nat, toNat?, JsonNumber.toNat?, if_pos h]

/-- A natural number of 64 bits is read back. -/
theorem toWord?_nat (n : UInt64) : (nat n).toWord? = some n := by
  rw [toWord?, toNat?_nat n.toNat_lt, Option.map_some]
  exact congrArg some UInt64.ofNat_toNat

/-! ## Heights -/

/-- A member of an array has a smaller height. -/
theorem height_lt_of_mem_items {items : List Json} {item : Json} (h : item ∈ items) :
    item.height < (array items).height := by
  rw [height.eq_def (array items)]
  refine Nat.lt_succ_of_le ?_
  induction items with
  | nil => exact absurd h List.not_mem_nil
  | cons first rest ih =>
    rw [heightOfItems]
    rcases List.mem_cons.mp h with rfl | h
    · exact Nat.le_max_left _ _
    · exact Nat.le_trans (ih h) (Nat.le_max_right _ _)

/-- A value that is found in an object has a smaller height. -/
theorem height_lt_of_lookup {members : List (String × Json)} {value : Json} (key : String)
    (h : members.lookup key = some value) : value.height < (object members).height := by
  rw [height.eq_def (object members)]
  refine Nat.lt_succ_of_le ?_
  induction members with
  | nil => exact absurd h (Option.some_ne_none value).symm
  | cons first rest ih =>
    obtain ⟨other, content⟩ := first
    rw [heightOfMembers]
    rw [List.lookup_cons] at h
    split at h
    · obtain rfl := Option.some.inj h
      exact Nat.le_max_left _ _
    · exact Nat.le_trans (ih h) (Nat.le_max_right _ _)

end Json

end AbstractSql
