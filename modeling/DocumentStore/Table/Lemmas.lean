import DocumentStore.Table

/-!
Contract: what the operations of a table do to its look-ups and to its keys.

Owns: look-up after an insertion and after a removal, the keys after each, and the
distinctness of the keys that every operation keeps.

Does not own: any table in particular.

`value?_put` and `value?_remove` say that an operation on one key is not seen under
any other. `keys_put` says that an insertion never moves a key, and
`ofEntries_eq_self` that a table is the table of its own listing.
-/

set_option autoImplicit false

namespace DocumentStore.Table

variable {κ α : Type}

@[simp] theorem keys_cons (entry : κ × α) (rest : Table κ α) :
    keys (entry :: rest) = entry.1 :: keys rest := rfl

@[simp] theorem keys_nil : keys ([] : Table κ α) = [] := rfl

theorem mem_keys_iff {table : Table κ α} {key : κ} :
    key ∈ keys table ↔ ∃ value, (key, value) ∈ table := by
  simp [keys]

theorem distinct_cons {entry : κ × α} {rest : Table κ α} :
    Distinct (entry :: rest) ↔ entry.1 ∉ keys rest ∧ Distinct rest := by
  simp [Distinct]

variable [DecidableEq κ]

section LookUp

@[simp] theorem value?_nil (key : κ) : value? ([] : Table κ α) key = none := rfl

theorem mem_of_value? {table : Table κ α} {key : κ} {value : α}
    (found : value? table key = some value) : (key, value) ∈ table := by
  induction table with
  | nil => simp at found
  | cons entry rest inductionHypothesis =>
      obtain ⟨present, held⟩ := entry
      by_cases same : present = key
      · simp only [value?, same, ↓reduceIte, Option.some.injEq] at found
        simp [same, found]
      · simp only [value?, same, ↓reduceIte] at found
        exact List.mem_cons_of_mem _ (inductionHypothesis found)

theorem value?_eq_none_iff {table : Table κ α} {key : κ} :
    value? table key = none ↔ key ∉ keys table := by
  induction table with
  | nil => simp
  | cons entry rest inductionHypothesis =>
      obtain ⟨present, held⟩ := entry
      by_cases same : present = key
      · simp [value?, same]
      · have other : ¬key = present := fun equal => same equal.symm
        simp [value?, same, other, inductionHypothesis]

theorem contains_iff {table : Table κ α} {key : κ} :
    contains table key = true ↔ key ∈ keys table := by
  rw [contains, Option.isSome_iff_ne_none, ne_eq, value?_eq_none_iff, Classical.not_not]

theorem value?_eq_some_iff {table : Table κ α} (distinct : Distinct table) {key : κ} {value : α} :
    value? table key = some value ↔ (key, value) ∈ table := by
  refine ⟨mem_of_value?, fun member => ?_⟩
  induction table with
  | nil => simp at member
  | cons entry rest inductionHypothesis =>
      obtain ⟨present, held⟩ := entry
      obtain ⟨absent, restDistinct⟩ := distinct_cons.1 distinct
      rcases List.mem_cons.1 member with first | later
      · obtain ⟨rfl, rfl⟩ := Prod.mk.inj first
        simp [value?]
      · have different : present ≠ key := by
          rintro rfl
          exact absent (mem_keys_iff.2 ⟨value, later⟩)
        simp [value?, different, inductionHypothesis restDistinct later]

end LookUp

section Insertion

theorem value?_put (table : Table κ α) (key other : κ) (value : α) :
    value? (put table key value) other = if key = other then some value else value? table other := by
  induction table with
  | nil => simp [put, value?]
  | cons entry rest inductionHypothesis =>
      obtain ⟨present, held⟩ := entry
      by_cases same : present = key
      · subst same
        by_cases found : present = other <;> simp [put, value?, found]
      · by_cases found : present = other
        · subst found
          have different : ¬key = present := fun equal => same equal.symm
          simp [put, value?, same, different]
        · simp [put, value?, same, found, inductionHypothesis]

@[simp] theorem value?_put_self (table : Table κ α) (key : κ) (value : α) :
    value? (put table key value) key = some value := by
  simp [value?_put]

theorem value?_put_of_ne (table : Table κ α) {key other : κ} (value : α) (different : key ≠ other) :
    value? (put table key value) other = value? table other := by
  simp [value?_put, different]

theorem keys_put (table : Table κ α) (key : κ) (value : α) :
    keys (put table key value) = if key ∈ keys table then keys table else keys table ++ [key] := by
  induction table with
  | nil => simp [put]
  | cons entry rest inductionHypothesis =>
      obtain ⟨present, held⟩ := entry
      by_cases same : present = key
      · simp [put, same]
      · have other : ¬key = present := fun equal => same equal.symm
        by_cases member : key ∈ keys rest <;>
          simp [put, same, other, member, inductionHypothesis]

@[simp] theorem mem_keys_put {table : Table κ α} {key other : κ} {value : α} :
    other ∈ keys (put table key value) ↔ other ∈ keys table ∨ other = key := by
  rw [keys_put]
  split
  · next member =>
      exact ⟨Or.inl, fun either => either.elim id fun equal => equal ▸ member⟩
  · simp

theorem Distinct.put {table : Table κ α} (distinct : Distinct table) (key : κ) (value : α) :
    Distinct (Table.put table key value) := by
  rw [Distinct, keys_put]
  split
  · exact distinct
  · next absent =>
      refine List.nodup_append.2 ⟨distinct, by simp, ?_⟩
      intro first firstMember second secondMember equal
      rw [List.mem_singleton.1 secondMember] at equal
      exact absent (equal ▸ firstMember)

theorem put_of_not_mem {table : Table κ α} {key : κ} (absent : key ∉ keys table) (value : α) :
    put table key value = table ++ [(key, value)] := by
  induction table with
  | nil => rfl
  | cons entry rest inductionHypothesis =>
      obtain ⟨present, held⟩ := entry
      simp only [keys_cons, List.mem_cons, not_or] at absent
      have different : ¬present = key := fun equal => absent.1 equal.symm
      simp [put, different, inductionHypothesis absent.2]

theorem put_append_of_not_mem {table : Table κ α} {key : κ} (absent : key ∉ keys table)
    (others : Table κ α) (value : α) :
    put (table ++ others) key value = table ++ put others key value := by
  induction table with
  | nil => rfl
  | cons entry rest inductionHypothesis =>
      obtain ⟨present, held⟩ := entry
      simp only [keys_cons, List.mem_cons, not_or] at absent
      have different : ¬present = key := fun equal => absent.1 equal.symm
      simp [put, different, inductionHypothesis absent.2]

end Insertion

section Removal

theorem remove_of_not_mem {table : Table κ α} {key : κ} (absent : key ∉ keys table) :
    remove table key = table := by
  induction table with
  | nil => rfl
  | cons entry rest inductionHypothesis =>
      obtain ⟨present, held⟩ := entry
      simp only [keys_cons, List.mem_cons, not_or] at absent
      have different : ¬present = key := fun equal => absent.1 equal.symm
      simp [remove, different, inductionHypothesis absent.2]

theorem keys_remove (table : Table κ α) (key : κ) :
    keys (remove table key) = (keys table).erase key := by
  induction table with
  | nil => rfl
  | cons entry rest inductionHypothesis =>
      obtain ⟨present, held⟩ := entry
      by_cases same : present = key
      · simp [remove, same]
      · simp [remove, same, inductionHypothesis]

theorem Distinct.remove {table : Table κ α} (distinct : Distinct table) (key : κ) :
    Distinct (Table.remove table key) := by
  rw [Distinct, keys_remove]
  exact distinct.erase key

theorem value?_remove {table : Table κ α} (distinct : Distinct table) (key other : κ) :
    value? (remove table key) other = if key = other then none else value? table other := by
  induction table with
  | nil => simp [remove]
  | cons entry rest inductionHypothesis =>
      obtain ⟨present, held⟩ := entry
      obtain ⟨absent, restDistinct⟩ := distinct_cons.1 distinct
      by_cases same : present = key
      · subst same
        by_cases found : present = other
        · subst found
          simpa [remove] using value?_eq_none_iff.2 absent
        · simp [remove, value?, found]
      · by_cases found : present = other
        · subst found
          have different : ¬key = present := fun equal => same equal.symm
          simp [remove, value?, same, different]
        · simp [remove, value?, same, found, inductionHypothesis restDistinct]

end Removal

section Listing

theorem distinct_foldl_put (entries : List (κ × α)) {table : Table κ α}
    (distinct : Distinct table) :
    Distinct (entries.foldl (fun built entry => put built entry.1 entry.2) table) := by
  induction entries generalizing table with
  | nil => exact distinct
  | cons entry rest inductionHypothesis =>
      exact inductionHypothesis (distinct.put entry.1 entry.2)

theorem distinct_ofEntries (entries : List (κ × α)) : Distinct (ofEntries entries) :=
  distinct_foldl_put entries List.nodup_nil

theorem foldl_put_of_fresh (entries : List (κ × α)) (table : Table κ α)
    (distinct : Distinct (table ++ entries)) :
    entries.foldl (fun built entry => put built entry.1 entry.2) table = table ++ entries := by
  induction entries generalizing table with
  | nil => simp
  | cons entry rest inductionHypothesis =>
      have absent : entry.1 ∉ keys table := by
        intro member
        obtain ⟨_, _, apart⟩ := List.nodup_append.1 (by simpa [Distinct, keys] using distinct)
        exact apart entry.1 (by simpa [keys] using member) entry.1 (by simp) rfl
      rw [List.foldl_cons, put_of_not_mem absent]
      simpa using inductionHypothesis (table ++ [entry]) (by simpa using distinct)

theorem ofEntries_eq_self {table : Table κ α} (distinct : Distinct table) :
    ofEntries table = table := by
  simpa [ofEntries] using foldl_put_of_fresh table [] (by simpa using distinct)

theorem inKeyOrder_perm (table : Table String α) : (inKeyOrder table).Perm table :=
  List.mergeSort_perm table _

theorem Distinct.inKeyOrder {table : Table String α} (distinct : Distinct table) :
    Distinct (Table.inKeyOrder table) :=
  ((inKeyOrder_perm table).map Prod.fst).nodup_iff.2 distinct

end Listing

/-! ### Values -/

section Values

theorem mem_values_put {table : Table κ α} {key : κ} {value other : α}
    (member : other ∈ (put table key value).map Prod.snd) :
    other = value ∨ other ∈ table.map Prod.snd := by
  induction table with
  | nil =>
      rw [put, List.map_singleton, List.mem_singleton] at member
      exact .inl member
  | cons entry rest inductionHypothesis =>
      obtain ⟨present, held⟩ := entry
      rw [put] at member
      split at member
      · rcases List.mem_cons.1 member with same | later
        · exact .inl same
        · exact .inr (List.mem_cons_of_mem _ later)
      · rcases List.mem_cons.1 member with same | later
        · exact .inr (List.mem_cons.2 (.inl same))
        · exact (inductionHypothesis later).imp_right (List.mem_cons_of_mem _)

theorem mem_values_foldl_put {entries : List (κ × α)} {table : Table κ α} {value : α}
    (member : value ∈ (entries.foldl (fun built entry => put built entry.1 entry.2) table).map
      Prod.snd) :
    value ∈ table.map Prod.snd ∨ value ∈ entries.map Prod.snd := by
  induction entries generalizing table with
  | nil => exact .inl member
  | cons entry rest inductionHypothesis =>
      rcases inductionHypothesis member with early | late
      · rcases mem_values_put early with rfl | old
        · exact .inr List.mem_cons_self
        · exact .inl old
      · exact .inr (List.mem_cons_of_mem _ late)

/-- The values of the table of a listing are values of the listing. -/
theorem mem_values_ofEntries {entries : List (κ × α)} {value : α}
    (member : value ∈ (ofEntries entries).map Prod.snd) : value ∈ entries.map Prod.snd := by
  rcases mem_values_foldl_put member with absent | present
  · cases absent
  · exact present

theorem remove_sublist (table : Table κ α) (key : κ) : (remove table key).Sublist table := by
  induction table with
  | nil => exact .refl _
  | cons entry rest inductionHypothesis =>
      rw [remove]
      split
      · exact List.sublist_cons_self _ _
      · exact inductionHypothesis.cons_cons _

end Values

end DocumentStore.Table
