import StyleBuild.Lookup

/-!
# Dictionaries in key order

A dictionary maps texts to values. Its entries are kept in the order of their
keys, each key once, so two dictionaries with the same look-ups are equal
(`ext_find?`). The order of texts is the one of their code points.
-/

namespace StyleBuild

/-- Entries in strictly increasing key order. -/
structure Dictionary (α : Type) where
  entries : List (String × α)
  sorted : entries.Pairwise (fun a b => a.1 < b.1)

namespace Dictionary

open Lookup

variable {α : Type}

protected theorem eq {d d' : Dictionary α} (h : d.entries = d'.entries) : d = d' := by
  cases d; cases d'; simp_all

instance [DecidableEq α] : DecidableEq (Dictionary α) := fun d d' =>
  decidable_of_iff (d.entries = d'.entries) ⟨Dictionary.eq, fun h => h ▸ rfl⟩

def empty : Dictionary α := ⟨[], List.Pairwise.nil⟩

def isEmpty (d : Dictionary α) : Bool := d.entries.isEmpty

def keys (d : Dictionary α) : List String := d.entries.map (·.1)

def find? (d : Dictionary α) (key : String) : Option α := d.entries.lookup key

def contains (d : Dictionary α) (key : String) : Bool := (d.find? key).isSome

/-- Puts an entry in its place among sorted entries, replacing one with the same key. -/
def place (key : String) (value : α) : List (String × α) → List (String × α)
  | [] => [(key, value)]
  | (k, v) :: rest =>
    if key < k then (key, value) :: (k, v) :: rest
    else if key = k then (key, value) :: rest
    else (k, v) :: place key value rest

theorem mem_place {key : String} {value : α} {l : List (String × α)} {e : String × α}
    (h : e ∈ place key value l) : e = (key, value) ∨ e ∈ l := by
  induction l with
  | nil => simpa [place] using h
  | cons p rest ih =>
    obtain ⟨k, v⟩ := p
    rw [place] at h
    split at h
    · simpa using h
    · split at h
      · rcases List.mem_cons.1 h with h | h
        · exact Or.inl h
        · exact Or.inr (List.mem_cons_of_mem _ h)
      · rcases List.mem_cons.1 h with h | h
        · exact Or.inr (h ▸ List.mem_cons_self)
        · rcases ih h with h | h
          · exact Or.inl h
          · exact Or.inr (List.mem_cons_of_mem _ h)

theorem lt_of_not_lt_of_ne {a b : String} (h : ¬ a < b) (hne : a ≠ b) : b < a := by
  refine Decidable.byContradiction fun h' => hne ?_
  exact String.le_antisymm (String.not_lt.1 h') (String.not_lt.1 h)

theorem pairwise_place {key : String} {value : α} {l : List (String × α)}
    (h : l.Pairwise (fun a b => a.1 < b.1)) :
    (place key value l).Pairwise (fun a b => a.1 < b.1) := by
  induction l with
  | nil => simp [place]
  | cons p rest ih =>
    obtain ⟨k, v⟩ := p
    have hp := List.pairwise_cons.1 h
    rw [place]
    split
    · next hlt =>
      refine List.pairwise_cons.2 ⟨fun e he => ?_, h⟩
      rcases List.mem_cons.1 he with rfl | he
      · exact hlt
      · exact String.lt_trans hlt (hp.1 e he)
    · next hnlt =>
      split
      · next heq =>
        subst heq
        exact List.pairwise_cons.2 ⟨hp.1, hp.2⟩
      · next hne =>
        refine List.pairwise_cons.2 ⟨fun e he => ?_, ih hp.2⟩
        rcases mem_place he with rfl | he
        · exact lt_of_not_lt_of_ne hnlt hne
        · exact hp.1 e he

def insert (d : Dictionary α) (key : String) (value : α) : Dictionary α :=
  ⟨place key value d.entries, pairwise_place d.sorted⟩

def erase (d : Dictionary α) (key : String) : Dictionary α :=
  ⟨d.entries.filter (·.1 ≠ key), d.sorted.filter _⟩

/-- The dictionary with each value replaced. -/
def map {β : Type} (f : α → β) (d : Dictionary α) : Dictionary β :=
  ⟨d.entries.map fun e => (e.1, f e.2), by
    rw [List.pairwise_map]
    exact d.sorted⟩

/-- Later entries win over earlier ones with the same key. -/
def ofList (l : List (String × α)) : Dictionary α :=
  l.foldl (fun d e => d.insert e.1 e.2) empty

theorem lookup_place (key : String) (value : α) (l : List (String × α)) (k : String) :
    (place key value l).lookup k = if k = key then some value else l.lookup k := by
  induction l with
  | nil => simp [place, lookup_cons_eq]
  | cons p rest ih =>
    obtain ⟨k', v'⟩ := p
    rw [place]
    split
    · simp [lookup_cons_eq]
    · split
      · next heq =>
        subst heq
        by_cases h : k = key <;> simp [lookup_cons_eq, h]
      · next hne =>
        rw [lookup_cons_eq, lookup_cons_eq, ih]
        by_cases h : k = k'
        · subst h
          have hk : k ≠ key := fun h => hne h.symm
          simp [hk]
        · simp [h]

@[simp] theorem find?_empty (k : String) : (empty : Dictionary α).find? k = none := rfl

theorem find?_insert (d : Dictionary α) (key : String) (value : α) (k : String) :
    (d.insert key value).find? k = if k = key then some value else d.find? k :=
  lookup_place key value d.entries k

theorem mem_entries_iff {d : Dictionary α} {e : String × α} :
    e ∈ d.entries ↔ d.find? e.1 = some e.2 := by
  obtain ⟨key, value⟩ := e
  constructor
  · intro h
    obtain ⟨front, back, hentries⟩ := List.append_of_mem h
    have hsorted := d.sorted
    rw [hentries, List.pairwise_append] at hsorted
    refine List.lookup_eq_some_iff.2 ⟨front, back, hentries, fun e he => ?_⟩
    have hlt := hsorted.2.2 e he (key, value) List.mem_cons_self
    simp only [bne_iff_ne, ne_eq]
    rintro rfl
    exact String.lt_irrefl _ hlt
  · intro h
    obtain ⟨front, back, hentries, -⟩ := List.lookup_eq_some_iff.1 h
    rw [hentries]
    exact List.mem_append_right _ List.mem_cons_self

theorem nodup_entries (d : Dictionary α) : d.entries.Nodup :=
  d.sorted.imp fun {a b} hlt (heq : a = b) => String.lt_irrefl b.1 (heq ▸ hlt)

/-- A sorted list of entries is determined by its look-ups. -/
theorem eq_of_lookup_eq {l l' : List (String × α)}
    (hl : l.Pairwise (fun a b => a.1 < b.1)) (hl' : l'.Pairwise (fun a b => a.1 < b.1))
    (h : ∀ k, l.lookup k = l'.lookup k) : l = l' := by
  have absent : ∀ {m : List (String × α)} {k : String},
      (∀ e ∈ m, k < e.1) → m.lookup k = none := by
    intro m k hm
    induction m with
    | nil => rfl
    | cons e m ih =>
      obtain ⟨k', v'⟩ := e
      have hlt : k < k' := hm (k', v') List.mem_cons_self
      have hne : ¬ k = k' := fun h => String.lt_irrefl k' (by rw [h] at hlt; exact hlt)
      rw [lookup_cons_eq, if_neg hne]
      exact ih fun e he => hm e (List.mem_cons_of_mem _ he)
  induction l generalizing l' with
  | nil =>
    cases l' with
    | nil => rfl
    | cons p' rest' =>
      obtain ⟨k', v'⟩ := p'
      simpa [lookup_cons_eq] using h k'
  | cons p rest ih =>
    cases l' with
    | nil =>
      obtain ⟨k, v⟩ := p
      simpa [lookup_cons_eq] using h k
    | cons p' rest' =>
      obtain ⟨k, v⟩ := p
      obtain ⟨k', v'⟩ := p'
      have hp := List.pairwise_cons.1 hl
      have hp' := List.pairwise_cons.1 hl'
      have hkey : k = k' := by
        refine Decidable.byContradiction fun hne => ?_
        by_cases hlt : k < k'
        · have hnone : List.lookup k ((k', v') :: rest') = none :=
            absent fun e he => by
              rcases List.mem_cons.1 he with rfl | he
              · exact hlt
              · exact String.lt_trans hlt (hp'.1 e he)
          simpa [hnone, lookup_cons_eq] using h k
        · have hgt : k' < k := lt_of_not_lt_of_ne hlt hne
          have hnone : List.lookup k' ((k, v) :: rest) = none :=
            absent fun e he => by
              rcases List.mem_cons.1 he with rfl | he
              · exact hgt
              · exact String.lt_trans hgt (hp.1 e he)
          simpa [hnone, lookup_cons_eq] using h k'
      subst hkey
      have hv : v = v' := by simpa [lookup_cons_eq] using h k
      subst hv
      refine congrArg _ (ih hp.2 hp'.2 fun j => ?_)
      by_cases hj : j = k
      · subst hj
        rw [absent fun e he => hp.1 e he, absent fun e he => hp'.1 e he]
      · simpa [lookup_cons_eq, hj] using h j

/-- Entries in key order are put in one after the other; no later one has the key of an earlier
one. -/
theorem find?_foldl_insert {l : List (String × α)} (hl : l.Pairwise (fun a b => a.1 < b.1))
    (d : Dictionary α) (k : String) :
    (l.foldl (fun d e => d.insert e.1 e.2) d).find? k = (l.lookup k).or (d.find? k) := by
  induction l generalizing d with
  | nil => simp
  | cons e l ih =>
    obtain ⟨key, value⟩ := e
    have hp := List.pairwise_cons.1 hl
    rw [List.foldl_cons, ih hp.2, find?_insert, lookup_cons_eq]
    by_cases hk : k = key
    · subst hk
      have habsent : l.lookup k = none := by
        refine List.lookup_eq_none_iff.2 fun e he => ?_
        have hlt : k < e.1 := hp.1 e he
        simp only [bne_iff_ne, ne_eq]
        exact fun h => String.lt_irrefl k (by rw [← h] at hlt; exact hlt)
      simp [habsent]
    · simp [hk]

theorem ext_find? {d d' : Dictionary α} (h : ∀ k, d.find? k = d'.find? k) : d = d' :=
  Dictionary.eq (eq_of_lookup_eq d.sorted d'.sorted h)

/-- A dictionary is made again from its entries. -/
theorem ofList_entries (d : Dictionary α) : ofList d.entries = d := by
  refine ext_find? fun k => ?_
  rw [ofList, find?_foldl_insert d.sorted, find?_empty]
  cases h : d.entries.lookup k <;> simp [find?, h]

end Dictionary

end StyleBuild
