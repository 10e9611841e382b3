/-!
# Keyed lists

Lists of pairs with distinct text keys. `insert` keeps the keys increasing, for collections whose
order is that of their keys; `set` keeps every key where it was first put, for collections in
order of arrival. Both replace the value of a key that is already there.
-/

set_option autoImplicit false

namespace LayeredQuery.Keyed

variable {α : Type}

def lookup? (key : String) : List (String × α) → Option α
  | [] => none
  | (name, value) :: rest => if name = key then some value else lookup? key rest

def insert (key : String) (value : α) : List (String × α) → List (String × α)
  | [] => [(key, value)]
  | (name, old) :: rest =>
    if key = name then (key, value) :: rest
    else if key < name then (key, value) :: (name, old) :: rest
    else (name, old) :: insert key value rest

def set (key : String) (value : α) : List (String × α) → List (String × α)
  | [] => [(key, value)]
  | (name, old) :: rest =>
    if key = name then (name, value) :: rest else (name, old) :: set key value rest

def keys (entries : List (String × α)) : List String :=
  entries.map Prod.fst

def Increasing (entries : List (String × α)) : Prop :=
  (keys entries).Pairwise (· < ·)

/-! ## Looking up -/

theorem lookup?_insert (key name : String) (value : α) (entries : List (String × α)) :
    lookup? name (insert key value entries) =
      if key = name then some value else lookup? name entries := by
  induction entries with
  | nil => simp [insert, lookup?]
  | cons entry rest ih =>
    obtain ⟨other, old⟩ := entry
    rw [insert]
    by_cases same : key = other
    · subst other
      by_cases found : key = name <;> simp [lookup?, found]
    · rw [if_neg same]
      by_cases before : key < other
      · simp [lookup?, before]
      · rw [if_neg before]
        simp only [lookup?, ih]
        by_cases found : other = name
        · have differ : key ≠ name := fun h => same (h.trans found.symm)
          simp [found, differ]
        · simp [found]

theorem lookup?_set (key name : String) (value : α) (entries : List (String × α)) :
    lookup? name (set key value entries) =
      if key = name then some value else lookup? name entries := by
  induction entries with
  | nil => simp [set, lookup?]
  | cons entry rest ih =>
    obtain ⟨other, old⟩ := entry
    rw [set]
    by_cases same : key = other
    · subst other
      by_cases found : key = name <;> simp [lookup?, found]
    · rw [if_neg same]
      simp only [lookup?, ih]
      by_cases found : other = name
      · have differ : key ≠ name := fun h => same (h.trans found.symm)
        simp [found, differ]
      · simp [found]

theorem lookup?_append (name : String) (xs ys : List (String × α)) :
    lookup? name (xs ++ ys) = (lookup? name xs).or (lookup? name ys) := by
  induction xs with
  | nil => rfl
  | cons entry rest ih =>
    obtain ⟨key, value⟩ := entry
    rw [List.cons_append, lookup?, lookup?]
    by_cases same : key = name
    · simp [same]
    · simp [same, ih]

theorem mem_of_lookup? {name : String} {value : α} {entries : List (String × α)}
    (found : lookup? name entries = some value) : (name, value) ∈ entries := by
  induction entries with
  | nil => cases found
  | cons entry rest ih =>
    obtain ⟨other, old⟩ := entry
    rw [lookup?] at found
    by_cases same : other = name
    · rw [if_pos same] at found
      cases found
      exact same ▸ List.mem_cons_self
    · rw [if_neg same] at found
      exact List.mem_cons_of_mem _ (ih found)

theorem lookup?_of_mem {key : String} {value : α} {entries : List (String × α)}
    (once : (keys entries).Nodup) (member : (key, value) ∈ entries) :
    lookup? key entries = some value := by
  induction entries with
  | nil => cases member
  | cons entry rest ih =>
    obtain ⟨name, first⟩ := entry
    obtain ⟨isNew, once⟩ := List.nodup_cons.mp once
    rw [lookup?]
    rcases List.mem_cons.mp member with same | later
    · cases same
      exact if_pos rfl
    · have differ : name ≠ key := fun same =>
        isNew (List.mem_map.mpr ⟨(key, value), later, same.symm⟩)
      rw [if_neg differ]
      exact ih once later

theorem mem_of_mem_insert {key : String} {value : α} {entries : List (String × α)}
    {entry : String × α} (member : entry ∈ insert key value entries) :
    entry = (key, value) ∨ entry ∈ entries := by
  induction entries with
  | nil => simpa [insert] using member
  | cons first rest ih =>
    obtain ⟨other, old⟩ := first
    rw [insert] at member
    split at member
    · rcases List.mem_cons.mp member with new | later
      · exact .inl new
      · exact .inr (List.mem_cons_of_mem _ later)
    · split at member
      · rcases List.mem_cons.mp member with new | later
        · exact .inl new
        · exact .inr later
      · rcases List.mem_cons.mp member with same | later
        · exact .inr (same ▸ List.mem_cons_self)
        · exact (ih later).imp_right (List.mem_cons_of_mem _)

theorem mem_insert_self (key : String) (value : α) (entries : List (String × α)) :
    (key, value) ∈ insert key value entries := by
  induction entries with
  | nil => simp [insert]
  | cons first rest ih =>
    obtain ⟨name, old⟩ := first
    rw [insert]
    split
    · exact List.mem_cons_self
    · split
      · exact List.mem_cons_self
      · exact List.mem_cons_of_mem _ ih

theorem mem_insert_or_lookup? (key : String) (value : α) {entries : List (String × α)}
    {entry : String × α} (member : entry ∈ entries) :
    entry ∈ insert key value entries ∨ entry.1 = key ∧ lookup? key entries = some entry.2 := by
  induction entries with
  | nil => cases member
  | cons first rest ih =>
    obtain ⟨name, old⟩ := first
    rw [insert]
    by_cases same : key = name
    · rw [if_pos same]
      rcases List.mem_cons.mp member with rfl | later
      · exact .inr ⟨same.symm, by simp [lookup?, same]⟩
      · exact .inl (List.mem_cons_of_mem _ later)
    · rw [if_neg same]
      split
      · exact .inl (List.mem_cons_of_mem _ member)
      · rcases List.mem_cons.mp member with rfl | later
        · exact .inl List.mem_cons_self
        · rw [lookup?, if_neg (Ne.symm same)]
          exact (ih later).imp_left (List.mem_cons_of_mem _)

/-! ## Keys -/

theorem mem_keys_iff {name : String} {entries : List (String × α)} :
    name ∈ keys entries ↔ (lookup? name entries).isSome := by
  induction entries with
  | nil => simp [keys, lookup?]
  | cons entry rest ih =>
    obtain ⟨key, value⟩ := entry
    unfold keys at ih ⊢
    rw [List.map_cons, List.mem_cons, ih, lookup?]
    by_cases same : key = name
    · simp [same]
    · simp [same, Ne.symm same]

theorem lookup?_eq_none_iff {name : String} {entries : List (String × α)} :
    lookup? name entries = none ↔ name ∉ keys entries := by
  rw [mem_keys_iff, Option.not_isSome_iff_eq_none]

theorem mem_keys_insert (key name : String) (value : α) (entries : List (String × α)) :
    name ∈ keys (insert key value entries) ↔ name = key ∨ name ∈ keys entries := by
  induction entries with
  | nil => simp [insert, keys]
  | cons entry rest ih =>
    obtain ⟨other, old⟩ := entry
    simp only [keys, List.map_cons, List.mem_cons] at ih ⊢
    rw [insert]
    by_cases same : key = other
    · subst other
      simp
    · rw [if_neg same]
      by_cases before : key < other
      · simp [before]
      · rw [if_neg before, List.map_cons, List.mem_cons, ih]
        constructor
        · rintro (h | h | h)
          · exact Or.inr (Or.inl h)
          · exact Or.inl h
          · exact Or.inr (Or.inr h)
        · rintro (h | h | h)
          · exact Or.inr (Or.inl h)
          · exact Or.inl h
          · exact Or.inr (Or.inr h)

theorem increasing_cons {key : String} {value : α} {entries : List (String × α)} :
    Increasing ((key, value) :: entries) ↔
      (∀ entry ∈ entries, key < entry.1) ∧ Increasing entries := by
  rw [Increasing, keys, List.map_cons, List.pairwise_cons, List.forall_mem_map]
  rfl

theorem Increasing.nodup {entries : List (String × α)} (sorted : Increasing entries) :
    (keys entries).Nodup := by
  refine List.Pairwise.imp ?_ sorted
  rintro name _ before rfl
  exact String.lt_irrefl name before

theorem Increasing.insert (key : String) (value : α) {entries : List (String × α)}
    (sorted : Increasing entries) : Increasing (insert key value entries) := by
  induction entries with
  | nil => simp [Keyed.insert, Increasing, keys]
  | cons entry rest ih =>
    obtain ⟨other, old⟩ := entry
    have parts := List.pairwise_cons.mp sorted
    rw [Keyed.insert]
    by_cases same : key = other
    · subst other
      rw [if_pos rfl]
      exact sorted
    · rw [if_neg same]
      by_cases before : key < other
      · rw [if_pos before]
        refine List.pairwise_cons.mpr ⟨?_, sorted⟩
        intro name found
        rcases List.mem_cons.mp found with h | h
        · exact h ▸ before
        · exact String.lt_trans before (parts.1 name h)
      · rw [if_neg before]
        refine List.pairwise_cons.mpr ⟨?_, ih parts.2⟩
        intro name found
        rcases (mem_keys_insert key name value rest).mp found with h | h
        · subst h
          exact String.not_le.mp fun le =>
            same (String.le_antisymm le (String.not_lt.mp before))
        · exact parts.1 name h

theorem insert_of_lookup? {key : String} {value : α} {entries : List (String × α)}
    (sorted : Increasing entries) (found : lookup? key entries = some value) :
    insert key value entries = entries := by
  induction entries with
  | nil => cases found
  | cons entry rest ih =>
    obtain ⟨name, old⟩ := entry
    obtain ⟨least, later⟩ := increasing_cons.mp sorted
    rw [lookup?] at found
    rw [insert]
    by_cases same : name = key
    · rw [if_pos same, Option.some_inj] at found
      rw [if_pos same.symm, found, same]
    · rw [if_neg same] at found
      have after : name < key := least _ (mem_of_lookup? found)
      rw [if_neg (Ne.symm same), if_neg (String.lt_asymm after), ih later found]

theorem keys_set (key : String) (value : α) (entries : List (String × α)) :
    keys (set key value entries) =
      if key ∈ keys entries then keys entries else keys entries ++ [key] := by
  induction entries with
  | nil => simp [set, keys]
  | cons entry rest ih =>
    obtain ⟨other, old⟩ := entry
    rw [set]
    by_cases same : key = other
    · simp [keys, same]
    · simp only [keys, List.map_cons, List.mem_cons] at ih ⊢
      rw [if_neg same, List.map_cons, ih]
      by_cases found : key ∈ rest.map Prod.fst <;> simp [found, same]

end LayeredQuery.Keyed
