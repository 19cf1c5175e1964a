import AbstractSql.Text.Parts

/-!
# Trimmed and joined parts

Trimming only takes blanks off the ends, so a part that begins with another character still does
so afterwards, and so does a statement whose first part it is.
-/

namespace AbstractSql.Text

/-- An empty part leaves no trace. -/
@[simp] theorem joinParts_empty_cons (parts : List String) :
    joinParts ("" :: parts) = joinParts parts := by
  have ht : trim "" = "" := rfl
  simp [joinParts, ht]

/-- An empty part behind others leaves no trace either. -/
@[simp] theorem joinParts_append_empty (parts : List String) :
    joinParts (parts ++ [""]) = joinParts parts := by
  have ht : trim "" = "" := rfl
  simp [joinParts, ht]

/-- Trimming keeps a first character that is not blank. -/
theorem trimCharacters_cons {c : Char} (hc : isBlank c = false) (cs : List Char) :
    ∃ rest, trimCharacters (c :: cs) = c :: rest := by
  have hd : ((c :: cs).dropWhile isBlank) = c :: cs := by simp [hc]
  rw [trimCharacters, hd, List.reverse_cons, List.dropWhile_append]
  split
  · exact ⟨[], by simp [hc]⟩
  · exact ⟨(cs.reverse.dropWhile isBlank).reverse, by simp⟩

/-- A part that does not begin with a blank is not blank. -/
theorem trim_ne_empty {c : Char} {part : String} (hc : isBlank c = false)
    (hp : part.toList.head? = some c) : trim part ≠ "" := by
  obtain ⟨cs, hcs⟩ := List.head?_eq_some_iff.mp hp
  obtain ⟨rest, hr⟩ := trimCharacters_cons hc cs
  intro he
  have ht : (trim part).toList = c :: rest := by rw [trim, String.toList_ofList, hcs, hr]
  simp [he] at ht

/-- Parts put together begin like the first of them, when that one does not begin with a blank. -/
theorem head?_joinParts_cons {c : Char} {part : String} (hc : isBlank c = false)
    (hp : part.toList.head? = some c) (parts : List String) :
    (joinParts (part :: parts)).toList.head? = some c := by
  obtain ⟨cs, hcs⟩ := List.head?_eq_some_iff.mp hp
  obtain ⟨rest, hr⟩ := trimCharacters_cons hc cs
  have ht : (trim part).toList = c :: rest := by rw [trim, String.toList_ofList, hcs, hr]
  have hn := trim_ne_empty hc hp
  have hf : ((part :: parts).map trim).filter (fun part => part != "") =
      trim part :: (parts.map trim).filter (fun part => part != "") := by simp [hn]
  rw [joinParts, hf]
  cases (parts.map trim).filter (fun part => part != "") with
  | nil => rw [String.intercalate_singleton, ht, List.head?_cons]
  | cons next others =>
    rw [String.intercalate_cons_cons, String.toList_append, String.toList_append, ht]
    simp only [List.cons_append, List.head?_cons]

/-- The characters neither begin nor end with a blank. -/
def IsTrimmed (cs : List Char) : Prop :=
  (∀ c ∈ cs.head?, isBlank c = false) ∧ ∀ c ∈ cs.getLast?, isBlank c = false

/-- Nothing is trimmed off characters that neither begin nor end with a blank. -/
theorem IsTrimmed.eq_self {cs : List Char} (h : IsTrimmed cs) : trimCharacters cs = cs := by
  have hdrop : ∀ cs : List Char, (∀ c ∈ cs.head?, isBlank c = false) →
      cs.dropWhile isBlank = cs := by
    intro cs hc
    cases cs with
    | nil => rfl
    | cons c cs => simp [hc c rfl]
  rw [trimCharacters, hdrop cs h.1, hdrop cs.reverse (by simpa using h.2), List.reverse_reverse]

/-- The first part comes first, and the others put together come last. -/
theorem joinParts_cons (part : String) (parts : List String) :
    ∃ separator, joinParts (part :: parts) = trim part ++ separator ++ joinParts parts := by
  by_cases hp : trim part = ""
  · exact ⟨"", by simp [joinParts, hp]⟩
  · rw [joinParts, List.map_cons, List.filter_cons_of_pos (by simpa using hp), joinParts]
    cases (parts.map trim).filter fun part => part != "" with
    | nil => exact ⟨"", by simp⟩
    | cons next rest => exact ⟨" ", String.intercalate_cons_cons⟩

/-- A trimmed part comes last, behind a space. -/
theorem joinParts_concat {first last : String} (hf : trim first ≠ "") (hl : trim last = last)
    (hn : last ≠ "") (rest : List String) :
    joinParts (first :: rest ++ [last]) = joinParts (first :: rest) ++ " " ++ last := by
  have hfilled : ((first :: rest).map trim).filter (fun part => part != "") ≠ [] := by
    rw [List.map_cons, List.filter_cons_of_pos (by simpa using hf)]
    exact List.cons_ne_nil _ _
  have hlast : ([last].map trim).filter (fun part => part != "") = [last] := by simp [hl, hn]
  rw [joinParts, List.map_append, List.filter_append, hlast,
    String.intercalate_append_of_ne_nil hfilled (List.cons_ne_nil _ _),
    String.intercalate_singleton, joinParts]

/-- A text between others that neither begin nor end with a blank is left alone by trimming. -/
theorem trim_around (front middle back : String) {c d : Char} (hf : front.toList.head? = some c)
    (hb : back.toList.getLast? = some d) (hc : isBlank c = false) (hd : isBlank d = false) :
    trim (front ++ middle ++ back) = front ++ middle ++ back := by
  have hall : IsTrimmed (front ++ middle ++ back).toList := by
    simp only [String.toList_append]
    refine ⟨fun e he => ?_, fun e he => ?_⟩
    · rw [List.append_assoc, List.head?_append, hf] at he
      obtain rfl : c = e := by simpa using he
      exact hc
    · rw [List.getLast?_append, hb] at he
      obtain rfl : d = e := by simpa using he
      exact hd
  rw [trim, hall.eq_self, String.ofList_toList]

/-- A number does not end with a blank. -/
theorem getLast?_number (n : Nat) :
    ∃ d, (toString n).toList.getLast? = some d ∧ isBlank d = false := by
  rw [Nat.toString_eq_ofList_toDigits, String.toList_ofList,
    List.getLast?_eq_some_getLast Nat.toDigits_ne_nil]
  refine ⟨_, rfl, ?_⟩
  have hdigit := Nat.isDigit_of_mem_toDigits (by decide) (by decide)
    (List.getLast_mem (Nat.toDigits_ne_nil (n := n) (b := 10)))
  generalize (Nat.toDigits 10 n).getLast Nat.toDigits_ne_nil = d at hdigit ⊢
  simp only [Char.isDigit, Bool.and_eq_true, decide_eq_true_eq] at hdigit
  have hle : d.toNat ≤ 57 := hdigit.2
  have hge : 48 ≤ d.toNat := hdigit.1
  simp only [isBlank, Bool.or_eq_false_iff, Bool.and_eq_false_iff, decide_eq_false_iff_not,
    beq_eq_false_iff_ne]
  omega

end AbstractSql.Text
