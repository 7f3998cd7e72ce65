/-
String-keyed dictionaries, kept as association lists with strictly
increasing keys. Every map that the pipeline shows (context maps, map
messages, variables, content formats, the registry's names) is shown in
key order, so the order is part of the type: two dictionaries with the
same entries are equal, and `toList` is already sorted.

The lemmas here say what `insert`, `erase` and `get?` do to each other;
everything above the type argues through them.
-/

namespace LogPipeline

/-- A finite map from strings, its entries sorted by key. -/
structure Dict (α : Type) where
  entries : List (String × α)
  sorted : entries.Pairwise (fun a b => a.1 < b.1)
  deriving DecidableEq

namespace Dict

variable {α : Type}

-- ============================================== operations on entries

/-- The value at `key`, scanning the entries. -/
def lookup (key : String) : List (String × α) → Option α
  | [] => none
  | (k, v) :: rest => if k = key then some v else lookup key rest

/-- Put `key ↦ value` in its place, replacing an entry with that key. -/
def place (key : String) (value : α) : List (String × α) → List (String × α)
  | [] => [(key, value)]
  | (k, v) :: rest =>
    if key < k then (key, value) :: (k, v) :: rest
    else if key = k then (key, value) :: rest
    else (k, v) :: place key value rest

/-- Drop the entry at `key`. -/
def remove (key : String) : List (String × α) → List (String × α)
  | [] => []
  | (k, v) :: rest => if k = key then rest else (k, v) :: remove key rest

/-- After placing an entry, the entries are that one and some of those
before. -/
theorem mem_place {key : String} {value : α} {e : String × α} :
    {l : List (String × α)} → e ∈ place key value l → e = (key, value) ∨ e ∈ l
  | [], h => by simpa [place] using h
  | (k, v) :: rest, h => by
    unfold place at h
    split at h
    · simpa using h
    · split at h
      · rcases List.mem_cons.1 h with h | h
        · exact Or.inl h
        · exact Or.inr (List.mem_cons_of_mem _ h)
      · rcases List.mem_cons.1 h with h | h
        · exact Or.inr (by simp [h])
        · rcases mem_place h with h | h
          · exact Or.inl h
          · exact Or.inr (List.mem_cons_of_mem _ h)

/-- Removing a key brings no new entry. -/
theorem mem_of_mem_remove {key : String} {e : String × α} :
    {l : List (String × α)} → e ∈ remove key l → e ∈ l
  | [], h => by simp [remove] at h
  | (k, v) :: rest, h => by
    unfold remove at h
    split at h
    · exact List.mem_cons_of_mem _ h
    · rcases List.mem_cons.1 h with h | h
      · simp [h]
      · exact List.mem_cons_of_mem _ (mem_of_mem_remove h)

/-- Placing an entry keeps the keys increasing. -/
theorem pairwise_place {key : String} {value : α} {l : List (String × α)}
    (h : l.Pairwise (fun a b => a.1 < b.1)) :
    (place key value l).Pairwise (fun a b => a.1 < b.1) := by
  induction l with
  | nil => simp [place]
  | cons e rest ih =>
    obtain ⟨k, v⟩ := e
    obtain ⟨hk, hr⟩ := List.pairwise_cons.1 h
    unfold place
    split
    · rename_i hlt
      refine List.pairwise_cons.2 ⟨fun b hb => ?_, h⟩
      rcases List.mem_cons.1 hb with rfl | hb
      · exact hlt
      · exact String.lt_trans hlt (hk b hb)
    · split
      · rename_i heq
        subst heq
        exact List.pairwise_cons.2 ⟨hk, hr⟩
      · rename_i hlt hne
        refine List.pairwise_cons.2 ⟨fun b hb => ?_, ih hr⟩
        rcases mem_place hb with rfl | hb
        · grind
        · exact hk b hb

theorem pairwise_remove {key : String} {l : List (String × α)}
    (h : l.Pairwise (fun a b => a.1 < b.1)) :
    (remove key l).Pairwise (fun a b => a.1 < b.1) := by
  induction l with
  | nil => simp [remove]
  | cons e rest ih =>
    obtain ⟨k, v⟩ := e
    obtain ⟨hk, hr⟩ := List.pairwise_cons.1 h
    unfold remove
    split
    · exact hr
    · exact List.pairwise_cons.2 ⟨fun b hb => hk b (mem_of_mem_remove hb), ih hr⟩

-- ========================================================= operations

/-- The dictionary without entries. -/
def empty : Dict α := ⟨[], .nil⟩

instance : Inhabited (Dict α) := ⟨empty⟩
instance : EmptyCollection (Dict α) := ⟨empty⟩

/-- The entries in key order. -/
def toList (d : Dict α) : List (String × α) := d.entries

def keys (d : Dict α) : List String := d.entries.map (·.1)

def values (d : Dict α) : List α := d.entries.map (·.2)

def size (d : Dict α) : Nat := d.entries.length

def isEmpty (d : Dict α) : Bool := d.entries.isEmpty

def get? (d : Dict α) (key : String) : Option α := lookup key d.entries

def contains (d : Dict α) (key : String) : Bool := (d.get? key).isSome

def insert (d : Dict α) (key : String) (value : α) : Dict α :=
  ⟨place key value d.entries, pairwise_place d.sorted⟩

def erase (d : Dict α) (key : String) : Dict α :=
  ⟨remove key d.entries, pairwise_remove d.sorted⟩

/-- Add the entries of a list from left to right; the last one with a key stays. -/
def insertAll (d : Dict α) (entries : List (String × α)) : Dict α :=
  entries.foldl (fun d e => d.insert e.1 e.2) d

def ofList (entries : List (String × α)) : Dict α := empty.insertAll entries

/-- The entries as they are written, between braces and with commas. -/
def braced (d : Dict α) (write : String × α → String) : String :=
  String.ofList ['{'] ++ ", ".intercalate (d.entries.map write) ++ String.ofList ['}']

-- ================================================ what a reader sees

/-- What is found after an entry was placed: its value at its key, and
elsewhere what was found before. -/
theorem lookup_place (key k' : String) (value : α) (l : List (String × α))
    (h : l.Pairwise (fun a b => a.1 < b.1)) :
    lookup k' (place key value l) = if key = k' then some value else lookup k' l := by
  induction l with
  | nil => simp [place, lookup]
  | cons e rest ih =>
    obtain ⟨k, v⟩ := e
    obtain ⟨-, hr⟩ := List.pairwise_cons.1 h
    unfold place
    split
    · by_cases hk : key = k' <;> simp [lookup, hk]
    · split
      · by_cases hk : key = k' <;> simp_all [lookup]
      · by_cases hk : k = k' <;> simp_all [lookup]

theorem lookup_eq_none {k' : String} {l : List (String × α)} (h : ∀ e ∈ l, e.1 ≠ k') :
    lookup k' l = none := by
  induction l with
  | nil => rfl
  | cons e rest ih =>
    obtain ⟨k, v⟩ := e
    have hk : k ≠ k' := h (k, v) (by simp)
    have ih := ih (fun e he => h e (List.mem_cons_of_mem _ he))
    simp [lookup, hk, ih]

/-- What is found after a key was removed: nothing there, and elsewhere what
was found before. Without the order a second entry of that key could come to
light. -/
theorem lookup_remove (key k' : String) (l : List (String × α))
    (h : l.Pairwise (fun a b => a.1 < b.1)) :
    lookup k' (remove key l) = if key = k' then none else lookup k' l := by
  induction l with
  | nil => simp [remove, lookup]
  | cons e rest ih =>
    obtain ⟨k, v⟩ := e
    obtain ⟨hk, hr⟩ := List.pairwise_cons.1 h
    unfold remove
    split
    · rename_i heq
      subst heq
      by_cases hkk : k = k'
      · subst hkk
        simpa using lookup_eq_none (fun e he => (String.ne_of_lt (hk e he)).symm)
      · simp [lookup, hkk]
    · rename_i hne
      by_cases hkk : k = k'
      · subst hkk
        simp [lookup, Ne.symm hne]
      · simp [lookup, hkk, ih hr]

@[simp] theorem get?_empty (key : String) : (empty : Dict α).get? key = none := rfl

/-- The law of inserting: the new value at its key, nothing changed
elsewhere. -/
theorem get?_insert (d : Dict α) (key k' : String) (value : α) :
    (d.insert key value).get? k' = if key = k' then some value else d.get? k' :=
  lookup_place key k' value d.entries d.sorted

/-- The law of erasing: nothing at the key, nothing changed elsewhere. -/
theorem get?_erase (d : Dict α) (key k' : String) :
    (d.erase key).get? k' = if key = k' then none else d.get? k' :=
  lookup_remove key k' d.entries d.sorted

/-- Keys occur once, so an entry is in the list exactly when its key finds its
value. -/
theorem mem_iff_lookup {key : String} {value : α} : ∀ {l : List (String × α)},
    l.Pairwise (fun a b => a.1 < b.1) → ((key, value) ∈ l ↔ lookup key l = some value)
  | [], _ => by simp [lookup]
  | (k, v) :: rest, h => by
    obtain ⟨hk, hrest⟩ := List.pairwise_cons.1 h
    unfold lookup
    rw [List.mem_cons, mem_iff_lookup hrest]
    split
    · next heq =>
      rw [heq] at hk
      have hnone : lookup key rest = none :=
        lookup_eq_none fun e he => (String.ne_of_lt (hk e he)).symm
      simp [hnone, heq, eq_comm]
    · next hne => simp [Ne.symm hne]

/-- Two dictionaries of the same entries are the same: the order is no further
choice. -/
theorem ext {c d : Dict α} (h : c.entries = d.entries) : c = d := by
  cases c
  cases d
  simpa using h

/-- A dictionary is known by what is found in it. -/
theorem eq_of_get? {c d : Dict α} (h : ∀ key, c.get? key = d.get? key) : c = d := by
  have hnodup : ∀ d : Dict α, d.entries.Nodup := fun d =>
    d.sorted.imp fun hlt heq => String.ne_of_lt hlt (congrArg Prod.fst heq)
  refine ext (List.Perm.eq_of_pairwise (fun a b _ _ hab hba => ?_) c.sorted d.sorted ?_)
  · exact absurd (String.lt_trans hab hba) (String.lt_irrefl a.1)
  · refine (List.perm_ext_iff_of_nodup (hnodup c) (hnodup d)).2 fun ⟨key, value⟩ => ?_
    rw [mem_iff_lookup c.sorted, mem_iff_lookup d.sorted]
    exact iff_of_eq (congrArg (· = some value) (h key))

-- ================================================== building in order

/-- An entry beyond all others is placed at the end. -/
theorem place_eq_append {key : String} {value : α} {l : List (String × α)}
    (h : ∀ e ∈ l, e.1 < key) : place key value l = l ++ [(key, value)] := by
  induction l with
  | nil => rfl
  | cons e rest ih =>
    obtain ⟨k, v⟩ := e
    have hk : k < key := h (k, v) (by simp)
    have hlt : ¬ key < k := fun hc => String.lt_irrefl key (String.lt_trans hc hk)
    have hne : key ≠ k := fun hc => String.lt_irrefl k (hc ▸ hk)
    simp only [place, if_neg hlt, if_neg hne, List.cons_append]
    rw [ih fun e he => h e (List.mem_cons_of_mem _ he)]

/-- Entries that are in order, and beyond those that are there, are added
one behind the other. -/
theorem entries_insertAll {d : Dict α} {l : List (String × α)}
    (h : (d.entries ++ l).Pairwise (fun a b => a.1 < b.1)) :
    (d.insertAll l).entries = d.entries ++ l := by
  induction l generalizing d with
  | nil => simp [insertAll]
  | cons e rest ih =>
    obtain ⟨k, v⟩ := e
    have hk : ∀ e ∈ d.entries, e.1 < k := fun e he =>
      (List.pairwise_append.1 h).2.2 e he (k, v) (by simp)
    have hplace : (d.insert k v).entries = d.entries ++ [(k, v)] := place_eq_append hk
    show ((d.insert k v).insertAll rest).entries = _
    rw [ih (by rw [hplace]; simpa using h), hplace]
    simp

/-- Adding the entries of a dictionary to an empty one copies it. -/
theorem insertAll_entries (d : Dict α) : empty.insertAll d.entries = d :=
  ext (entries_insertAll (by simpa [empty] using d.sorted))

end Dict

end LogPipeline
