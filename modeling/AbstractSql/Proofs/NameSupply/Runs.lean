import Mathlib.Order.Bounds.Basic
import Mathlib.Tactic.Tauto
import AbstractSql.Proofs.NameSupply.Freshness

/-!
# Runs of a name supply

A supply is asked for parameter names, aliases and closure tables, is told to keep names from being
issued, and starts its aliases again, in any order. The search for a parameter name passes over the
numbers that make taken names, with no bound of its own. It ends all the same, at the least number
above the counter that makes a name neither issued nor reserved earlier in the run, so no name comes
twice, also where one base with one number spells another base with another.
-/

namespace AbstractSql

/-- What a supply is asked for. -/
inductive NameRequest where
  /-- A parameter name made from a base. -/
  | parameter (base : String)
  /-- To keep a name from being issued. -/
  | reserve (name : String)
  /-- A subquery alias. -/
  | subquery
  /-- A closure table. -/
  | closure
  /-- To start the aliases again. -/
  | restart
  deriving DecidableEq

/-- The name that a request reserves, if it reserves one. -/
def NameRequest.reserved? : NameRequest → Option String
  | reserve name => some name
  | _ => none

/-- The names that requests reserve. -/
def NameRequest.reservedNames (requests : List NameRequest) : List String :=
  requests.filterMap reserved?

namespace NameSupply

/-- The supply after a request, and the parameter name issued for it, if it asks for one. -/
def answer (names : NameSupply) : NameRequest → Option String × NameSupply
  | .parameter base => (some (names.nextParameter base).1, (names.nextParameter base).2)
  | .reserve name => (none, names.reserve name)
  | .subquery => (none, names.nextAlias.2)
  | .closure => (none, names.nextClosure.2)
  | .restart => (none, names.resetAliases)

/-- The parameter names issued for requests in order, and the supply after them. -/
def answerAll (names : NameSupply) : List NameRequest → List String × NameSupply
  | [] => ([], names)
  | request :: rest =>
    let first := names.answer request
    let others := first.2.answerAll rest
    (first.1.toList ++ others.1, others.2)

/-- The search for a free number from a number on, as a loop that only a free number ends. -/
inductive Search (taken : List String) (base : String) : Nat → Nat → Prop where
  /-- The number makes a free name. -/
  | free {number : Nat} (h : base ++ toString number ∉ taken) : Search taken base number number
  /-- The number makes a taken name, and the search goes on with the next one. -/
  | taken {number found : Nat} (h : base ++ toString number ∈ taken)
      (rest : Search taken base (number + 1) found) : Search taken base number found

variable {names : NameSupply} {taken : List String} {base : String}

/-- A search ends at the least number from its start on that makes a free name. -/
theorem Search.isLeast {number found : Nat} (h : Search taken base number found) :
    IsLeast {n | number ≤ n ∧ base ++ toString n ∉ taken} found := by
  induction h with
  | free hfree => exact ⟨⟨Nat.le_refl _, hfree⟩, fun n hn => hn.1⟩
  | taken htaken rest ih =>
    obtain ⟨⟨hle, hfree⟩, hleast⟩ := ih
    refine ⟨⟨by omega, hfree⟩, fun n hn => ?_⟩
    -- The first number is taken, so any other free one comes after it.
    have hne : n ≠ _ := fun he => hn.2 (he ▸ htaken)
    have hlt := lt_of_le_of_ne hn.1 hne.symm
    exact hleast ⟨by omega, hn.2⟩

/-- A search passes over taken numbers only, so it can end at one place. -/
theorem Search.unique {number found other : Nat} (h : Search taken base number found)
    (k : Search taken base number other) : found = other :=
  h.isLeast.unique k.isLeast

/-- Searching does not depend on how the taken names are listed. -/
theorem Search.congr {others : List String} {number found : Nat}
    (h : Search taken base number found) (hsame : ∀ name, name ∈ taken ↔ name ∈ others) :
    Search others base number found := by
  induction h with
  | free hfree => exact .free fun hm => hfree ((hsame _).mpr hm)
  | taken htaken rest ih => exact .taken ((hsame _).mp htaken) ih

/-- The number that is found with a bound on the tries is the one that the search ends at, once
that number makes a free name. -/
theorem search_firstFree {tries number : Nat}
    (h : base ++ toString (firstFree taken base tries number) ∉ taken) :
    Search taken base number (firstFree taken base tries number) := by
  induction tries generalizing number with
  | zero => exact .free h
  | succ tries ih =>
    unfold firstFree at h ⊢
    by_cases ht : taken.contains (base ++ toString number) = true
    · rw [if_pos ht] at h ⊢
      have hm := List.contains_iff_mem.mp ht
      exact .taken hm (ih h)
    · rw [if_neg ht] at h ⊢
      exact .free h

/-- The search for the next parameter name ends, at the number of that name. -/
theorem search_nextParameter (names : NameSupply) (base : String) :
    Search names.issued base (names.sequence + 1) (names.nextParameter base).2.sequence :=
  search_firstFree (names.nextParameter_fresh base)

/-- After a request exactly the name issued for it and the name it reserves are taken besides. -/
theorem mem_issued_answer {request : NameRequest} {name : String} :
    name ∈ (names.answer request).2.issued ↔
      name ∈ (names.answer request).1.toList ∨ name ∈ request.reserved?.toList ∨
        name ∈ names.issued := by
  cases request with
  | parameter base =>
    have hissued := names.nextParameter_issued base
    simp only [answer, hissued, NameRequest.reserved?, Option.toList_some, Option.toList_none,
      List.mem_cons, List.not_mem_nil, or_false, false_or]
  | reserve other =>
    have hreserved : name ∈ (names.reserve other).issued ↔ name = other ∨ name ∈ names.issued :=
      mem_reserve
    simp only [answer, hreserved, NameRequest.reserved?, Option.toList_some, Option.toList_none,
      List.mem_cons, List.not_mem_nil, or_false, false_or]
  | subquery => simp [answer, nextAlias, NameRequest.reserved?]
  | closure => simp [answer, nextClosure, NameRequest.reserved?]
  | restart => simp [answer, resetAliases, NameRequest.reserved?]

/-- The names that are taken after a run are those issued and reserved in it, besides those taken
before. -/
theorem mem_issued_answerAll {requests : List NameRequest} {name : String} :
    name ∈ (names.answerAll requests).2.issued ↔
      name ∈ (names.answerAll requests).1 ∨ name ∈ NameRequest.reservedNames requests ∨
        name ∈ names.issued := by
  induction requests generalizing names with
  | nil => simp [answerAll, NameRequest.reservedNames]
  | cons request rest ih =>
    have hreserved : name ∈ NameRequest.reservedNames (request :: rest) ↔
        name ∈ request.reserved?.toList ∨ name ∈ NameRequest.reservedNames rest := by
      unfold NameRequest.reservedNames
      cases hr : request.reserved? <;> simp [hr]
    simp only [answerAll, ih, mem_issued_answer, List.mem_append, hreserved]
    tauto

/-- A name issued for a request was not taken before. -/
theorem answer_fresh {request : NameRequest} {name : String}
    (h : name ∈ (names.answer request).1.toList) : name ∉ names.issued := by
  cases request with
  | parameter base =>
    have he : name = (names.nextParameter base).1 := List.mem_singleton.mp h
    rw [he]
    exact names.nextParameter_fresh base
  | reserve other => exact absurd h List.not_mem_nil
  | subquery => exact absurd h List.not_mem_nil
  | closure => exact absurd h List.not_mem_nil
  | restart => exact absurd h List.not_mem_nil

/-- A name issued in a run was not taken before the run. -/
theorem answerAll_fresh {requests : List NameRequest} {name : String}
    (h : name ∈ (names.answerAll requests).1) : name ∉ names.issued := by
  induction requests generalizing names with
  | nil => exact absurd h List.not_mem_nil
  | cons request rest ih =>
    rcases List.mem_append.mp h with hfirst | hrest
    · exact answer_fresh hfirst
    · have hlater := ih hrest
      intro hm
      exact hlater (mem_issued_answer.mpr (.inr (.inr hm)))

/-- No name is issued twice in a run: each one is taken when the later ones are looked for. -/
theorem nodup_answerAll (names : NameSupply) (requests : List NameRequest) :
    (names.answerAll requests).1.Nodup := by
  induction requests generalizing names with
  | nil => exact List.nodup_nil
  | cons request rest ih =>
    have hone : (names.answer request).1.toList.Nodup := by
      cases (names.answer request).1 with
      | none => exact List.nodup_nil
      | some name => exact List.pairwise_singleton _ name
    refine List.nodup_append.mpr ⟨hone, ih _, ?_⟩
    rintro first hfirst later hlater rfl
    have hissued : first ∈ (names.answer request).2.issued := mem_issued_answer.mpr (.inl hfirst)
    exact answerAll_fresh hlater hissued

/-- A new supply, after any requests and asked for a parameter name: the search for its number ends,
in one place, and all that was issued or reserved before is passed over. The name is the base with
the least number above the counter that makes it none of those names, and the number is the new
counter. All names issued in the run are different, and none that is issued later is among those
issued or reserved by then. -/
theorem answerAll_issues (requests : List NameRequest) (base : String) :
    let run := ({} : NameSupply).answerAll requests
    let taken := run.1 ++ NameRequest.reservedNames requests
    let next := run.2.nextParameter base
    (∃! number, Search taken base (run.2.sequence + 1) number) ∧
      Search taken base (run.2.sequence + 1) next.2.sequence ∧
      next.1 = base ++ toString next.2.sequence ∧
      IsLeast {number | run.2.sequence < number ∧ base ++ toString number ∉ taken}
        next.2.sequence ∧
      run.1.Nodup ∧
      ∀ later, ∀ name ∈ (run.2.answerAll later).1, name ∉ taken := by
  intro run taken next
  have htaken : ∀ name, name ∈ run.2.issued ↔ name ∈ taken := by
    intro name
    have hissued : name ∈ run.2.issued ↔ name ∈ run.1 ∨ name ∈ NameRequest.reservedNames requests ∨
        name ∈ ({} : NameSupply).issued := mem_issued_answerAll
    have hnone : name ∉ ({} : NameSupply).issued := List.not_mem_nil
    rw [List.mem_append, hissued]
    tauto
  have hsearch : Search taken base (run.2.sequence + 1) next.2.sequence :=
    (search_nextParameter run.2 base).congr htaken
  refine ⟨⟨next.2.sequence, hsearch, fun number hnumber => hnumber.unique hsearch⟩, hsearch, rfl,
    hsearch.isLeast, nodup_answerAll {} requests, fun later name hname => ?_⟩
  have hfresh := answerAll_fresh hname
  exact fun hm => hfresh ((htaken name).mpr hm)

/-- The base `a1` with 1 spells the base `a` with 11, and 13 is reserved for `c`: both numbers are
passed over. -/
theorem answerAll_issues_ambiguous :
    let requests : List NameRequest :=
      .parameter "a1" :: List.replicate 9 (.parameter "b") ++ [.subquery, .reserve "c13", .restart]
    let run := ({} : NameSupply).answerAll requests
    let taken := run.1 ++ NameRequest.reservedNames requests
    run.2.sequence = 10 ∧ "a11" ∈ taken ∧
      IsLeast {number | run.2.sequence < number ∧ "a" ++ toString number ∉ taken} 12 ∧
      (run.2.answerAll [.parameter "a", .parameter "c"]).1 = ["a12", "c14"] ∧
      "c14" ∉ taken := by
  intro requests run taken
  have hall := answerAll_issues requests "a"
  have hlater : (run.2.answerAll [.parameter "a", .parameter "c"]).1 = ["a12", "c14"] := by
    decide +kernel
  have hleast := hall.2.2.2.1
  have hfresh := hall.2.2.2.2.2 [.parameter "a", .parameter "c"] "c14" (by rw [hlater]; decide)
  have hnumber : (run.2.nextParameter "a").2.sequence = 12 := by decide
  refine ⟨by decide, by decide, ?_, hlater, hfresh⟩
  rw [← hnumber]
  exact hleast

end NameSupply

end AbstractSql
