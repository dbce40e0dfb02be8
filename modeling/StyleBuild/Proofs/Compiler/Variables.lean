import Mathlib.Data.List.Nodup
import StyleBuild.Compiler
import StyleBuild.Proofs.Substitution.Completeness

/-!
# The variables of a compiler

Setting variables replaces all of them or none. Names are stored without a
leading `$`, and whatever was done with a compiler, all that it stores are
identifiers (`storesIdentifiers_after`). When all given names are identifiers up to
`$`, each given variable is stored with its own value, except one that is given
with `$` while another one has the same name without it (`IsHidden`): that one
is lost without an error (`setVariables_hidden`). The program has a line for
each stored variable, in the order of the names.
-/

namespace StyleBuild

open Text Substitution

namespace Compiler

variable {c : Compiler} {name key value : String} {given d : Dictionary String}
  {l : List (String × String)}

theorem isVariableName_iff {s : List Char} : isVariableName s = true ↔ IsIdentifier s := by
  constructor
  · intro h
    cases s with
    | nil => cases h
    | cons a s =>
        simp only [isVariableName, isNameStart, Bool.and_eq_true, Bool.or_eq_true, beq_iff_eq,
          List.all_eq_true, isNamePart, or_assoc] at h
        refine ⟨⟨a, rfl, h.1⟩, List.forall_mem_cons.2 ⟨?_, h.2⟩⟩
        exact h.1.imp (fun halpha => by simp [Char.isAlphanum, halpha]) .inl
  · rintro ⟨⟨a, ha, hfirst⟩, hall⟩
    cases s with
    | nil => cases ha
    | cons b s =>
        cases ha
        simp only [isVariableName, isNameStart, Bool.and_eq_true, Bool.or_eq_true, beq_iff_eq,
          List.all_eq_true, isNamePart, or_assoc]
        exact ⟨hfirst, fun x hx => hall x (List.mem_cons_of_mem _ hx)⟩

/-- An identifier comes behind the same name with `$` in the order of texts. -/
theorem dollar_lt (h : IsIdentifier key.toList) : "$" ++ key < key := by
  obtain ⟨a, ha, hfirst⟩ := h.first
  obtain ⟨rest, hkey⟩ := List.head?_eq_some_iff.1 ha
  have hlt : '$' < a := by
    rcases hfirst with halpha | rfl
    · delta Char.isAlpha Char.isUpper Char.isLower at halpha
      simp only [Bool.or_eq_true, Bool.and_eq_true, decide_eq_true_eq, ge_iff_le,
        UInt32.le_iff_toNat_le] at halpha
      rw [Char.lt_def, UInt32.lt_iff_toNat_lt]
      have hA : 'A'.val.toNat = 65 := rfl
      have hz : 'a'.val.toNat = 97 := rfl
      have hdollar : '$'.val.toNat = 36 := rfl
      omega
    · decide
  rw [String.lt_iff, String.toList_append, hkey]
  exact List.cons_lt_cons_iff.2 (.inl hlt)

theorem bareName_dollar (key : String) : bareName ("$" ++ key) = key := by
  have hlist : ("$" ++ key).toList = '$' :: key.toList := by
    rw [String.toList_append]
    rfl
  rw [bareName, hlist]
  exact String.ofList_toList

theorem bareName_cases (name : String) : bareName name = name ∨ name = "$" ++ bareName name := by
  unfold bareName
  split
  · next rest h =>
    refine .inr (String.toList_inj.1 ?_)
    rw [h]
    simp
  · exact .inl rfl

theorem bareName_of_isIdentifier (h : IsIdentifier key.toList) : bareName key = key := by
  rcases bareName_cases key with heq | heq
  · exact heq
  · obtain ⟨a, ha, hfirst⟩ := h.first
    rw [heq, String.toList_append] at ha
    cases ha
    exact absurd hfirst (by decide)

/-- The names that are stored under an identifier. -/
theorem bareName_eq_iff (h : IsIdentifier key.toList) :
    bareName name = key ↔ name = key ∨ name = "$" ++ key := by
  constructor
  · rintro rfl
    exact (bareName_cases name).imp_left Eq.symm
  · rintro (rfl | rfl)
    · exact bareName_of_isIdentifier h
    · exact bareName_dollar key

/-- Variables under their bare names, put in one after the other. -/
def storeAll (d : Dictionary String) (l : List (String × String)) : Dictionary String :=
  l.foldl (fun d e => d.insert (bareName e.1) e.2) d

theorem checkVariables_of_forall (h : ∀ e ∈ l, IsIdentifier (bareName e.1).toList) :
    checkVariables d l = .ok (storeAll d l) := by
  induction l generalizing d with
  | nil => rfl
  | cons e l ih =>
      obtain ⟨he, hl⟩ := List.forall_mem_cons.1 h
      rw [checkVariables, if_pos (isVariableName_iff.2 he), ih hl]
      rfl

/-- The first name that is no identifier is refused. -/
theorem checkVariables_of_not {front back : List (String × String)}
    (hfront : ∀ e ∈ front, IsIdentifier (bareName e.1).toList)
    (hname : ¬ IsIdentifier (bareName name).toList) :
    checkVariables d (front ++ (name, value) :: back) = .error (.invalidVariable name) := by
  induction front generalizing d with
  | nil => rw [List.nil_append, checkVariables, if_neg (isVariableName_iff.not.2 hname)]
  | cons e front ih =>
      obtain ⟨he, hfront⟩ := List.forall_mem_cons.1 hfront
      rw [List.cons_append, checkVariables, if_pos (isVariableName_iff.2 he)]
      exact ih hfront

/-- What is found under an identifier: the variable without `$`, or else the one with it. -/
theorem find?_storeAll (hsorted : l.Pairwise fun a b => a.1 < b.1)
    (hkey : IsIdentifier key.toList) :
    (storeAll d l).find? key =
      ((l.lookup key).or (l.lookup ("$" ++ key))).or (d.find? key) := by
  induction l generalizing d with
  | nil => rfl
  | cons e l ih =>
      obtain ⟨name, value⟩ := e
      obtain ⟨hlater, hsorted⟩ := List.pairwise_cons.1 hsorted
      have habsent : ∀ {other : String}, ¬ name < other → l.lookup other = none := by
        intro other hnot
        refine List.lookup_eq_none_iff.2 fun e he => ?_
        rw [bne_iff_ne]
        rintro rfl
        exact hnot (hlater e he)
      have hrest := ih (d := d.insert (bareName name) value) hsorted
      rw [storeAll, List.foldl_cons, ← storeAll, hrest, Dictionary.find?_insert,
        Lookup.lookup_cons_eq, Lookup.lookup_cons_eq]
      have hlt := dollar_lt hkey
      rcases eq_or_ne name key with rfl | hne
      · -- the variable with `$` came earlier, so it is not among the later ones
        have hirrefl : ¬ name < name := String.lt_irrefl name
        have hbehind : ¬ name < "$" ++ name := fun h => hirrefl (String.lt_trans h hlt)
        rw [habsent hirrefl, habsent hbehind, bareName_of_isIdentifier hkey]
        simp
      · rcases eq_or_ne name ("$" ++ key) with rfl | hne'
        · rw [habsent (String.lt_irrefl _), bareName_dollar, if_neg hne.symm]
          cases l.lookup key <;> simp
        · have hbare : ¬ key = bareName name := fun h =>
            ((bareName_eq_iff hkey).1 h.symm).elim hne hne'
          rw [if_neg hbare, if_neg hne.symm, if_neg hne'.symm]

/-- Only identifiers are added. -/
theorem find?_storeAll_of_not (h : ∀ e ∈ l, IsIdentifier (bareName e.1).toList)
    (hkey : ¬ IsIdentifier key.toList) : (storeAll d l).find? key = d.find? key := by
  induction l generalizing d with
  | nil => rfl
  | cons e l ih =>
      obtain ⟨he, hl⟩ := List.forall_mem_cons.1 h
      have hne : ¬ key = bareName e.1 := fun heq => hkey (heq ▸ he)
      rw [storeAll, List.foldl_cons, ← storeAll, ih hl, Dictionary.find?_insert, if_neg hne]

/-- The variable is given with `$`, and there is another one with the same name without it. -/
def IsHidden (given : Dictionary String) (name : String) : Prop :=
  name ≠ bareName name ∧ given.contains (bareName name) = true

instance (given : Dictionary String) (name : String) : Decidable (IsHidden given name) :=
  inferInstanceAs (Decidable (_ ∧ _))

/-- Of two variables with one bare name, one is hidden. -/
theorem eq_of_bareName_eq {name' : String} (hname : given.contains name = true)
    (hname' : given.contains name' = true) (hshown : ¬ IsHidden given name)
    (hshown' : ¬ IsHidden given name') (heq : bareName name = bareName name') : name = name' := by
  rcases bareName_cases name with hbare | hdollar
  · by_contra hne
    refine hshown' ⟨fun hsame => hne ?_, ?_⟩
    · rw [hsame, ← heq, hbare]
    · rwa [← heq, hbare]
  · rcases bareName_cases name' with hbare' | hdollar'
    · by_contra hne
      refine hshown ⟨fun hsame => hne ?_, ?_⟩
      · rw [hsame, heq, hbare']
      · rwa [heq, hbare']
    · rw [hdollar, heq, ← hdollar']

/-- The variables that are stored: the given ones that are not hidden, under their bare names. -/
theorem mem_storeAll_iff (h : ∀ e ∈ given.entries, IsIdentifier (bareName e.1).toList)
    {e : String × String} : e ∈ (storeAll .empty given.entries).entries ↔
      ∃ a ∈ given.entries, ¬ IsHidden given a.1 ∧ (bareName a.1, a.2) = e := by
  obtain ⟨key, value⟩ := e
  rw [Dictionary.mem_entries_iff]
  by_cases hkey : IsIdentifier key.toList
  · rw [find?_storeAll given.sorted hkey, Dictionary.find?_empty, Option.or_none]
    have hplain : given.entries.lookup key = given.find? key := rfl
    have hdollar : given.entries.lookup ("$" ++ key) = given.find? ("$" ++ key) := rfl
    rw [hplain, hdollar]
    constructor
    · intro hfound
      cases hfind : given.find? key with
      | some value' =>
          rw [hfind] at hfound
          cases hfound
          refine ⟨(key, value), Dictionary.mem_entries_iff.2 hfind, ?_, ?_⟩
          · exact fun hhidden => hhidden.1 (bareName_of_isIdentifier hkey).symm
          · rw [bareName_of_isIdentifier hkey]
      | none =>
          rw [hfind, Option.none_or] at hfound
          refine ⟨("$" ++ key, value), Dictionary.mem_entries_iff.2 hfound, ?_, ?_⟩
          · rintro ⟨-, hcontains⟩
            rw [bareName_dollar, Dictionary.contains, hfind] at hcontains
            cases hcontains
          · rw [bareName_dollar]
    · rintro ⟨⟨name, value'⟩, hmem, hhidden, heq⟩
      cases heq
      have hfind := Dictionary.mem_entries_iff.1 hmem
      rcases eq_or_ne name (bareName name) with hsame | hne
      · rw [← hsame, hfind]
        rfl
      · have hnone : given.find? (bareName name) = none := by
          rw [← Option.not_isSome_iff_eq_none]
          exact fun hsome => hhidden ⟨hne, hsome⟩
        rw [hnone, Option.none_or, ← (bareName_cases name).resolve_left hne.symm, hfind]
  · rw [find?_storeAll_of_not h hkey, Dictionary.find?_empty]
    refine iff_of_false (by simp) ?_
    rintro ⟨a, ha, -, heq⟩
    exact hkey ((Prod.mk.inj heq).1 ▸ h a ha)

/-- Each given variable is stored once, the hidden ones left out. -/
theorem perm_storeAll (h : ∀ e ∈ given.entries, IsIdentifier (bareName e.1).toList) :
    (storeAll .empty given.entries).entries.Perm
      ((given.entries.filter fun e => ¬ IsHidden given e.1).map fun e => (bareName e.1, e.2)) := by
  refine (List.perm_ext_iff_of_nodup (Dictionary.nodup_entries _) ?_).2 fun e => ?_
  · refine List.Nodup.map_on (fun a ha b hb heq => ?_) (List.Nodup.filter _ given.nodup_entries)
    rw [List.mem_filter, decide_eq_true_eq] at ha hb
    obtain ⟨hname, hvalue⟩ := Prod.mk.inj heq
    refine Prod.ext (eq_of_bareName_eq ?_ ?_ ha.2 hb.2 hname) hvalue
    · rw [Dictionary.contains, Dictionary.mem_entries_iff.1 ha.1]
      rfl
    · rw [Dictionary.contains, Dictionary.mem_entries_iff.1 hb.1]
      rfl
  · rw [mem_storeAll_iff h, List.mem_map]
    simp only [List.mem_filter, decide_eq_true_eq, and_assoc]

/-- All variables are replaced, or the first name that is no identifier is refused. -/
theorem setVariables_cases (c : Compiler) (given : Dictionary String) :
    ((∀ e ∈ given.entries, IsIdentifier (bareName e.1).toList) ∧
        c.setVariables given = .ok { c with bindings := storeAll .empty given.entries }) ∨
      ∃ front name value back, given.entries = front ++ (name, value) :: back ∧
        (∀ e ∈ front, IsIdentifier (bareName e.1).toList) ∧
        ¬ IsIdentifier (bareName name).toList ∧
        c.setVariables given = .error (.invalidVariable name) := by
  cases hfind : given.entries.find? fun e => !isVariableName (bareName e.1).toList with
  | none =>
      have hall : ∀ e ∈ given.entries, IsIdentifier (bareName e.1).toList := fun e he =>
        isVariableName_iff.1 (by simpa using List.find?_eq_none.1 hfind e he)
      exact .inl ⟨hall, by rw [setVariables, checkVariables_of_forall hall]⟩
  | some e =>
      obtain ⟨name, value⟩ := e
      obtain ⟨hname, front, back, hentries, hfront⟩ := List.find?_eq_some_iff_append.1 hfind
      have hnot : ¬ IsIdentifier (bareName name).toList := fun h => by
        rw [isVariableName_iff.2 h] at hname
        cases hname
      have hearlier : ∀ e ∈ front, IsIdentifier (bareName e.1).toList := fun e he =>
        isVariableName_iff.1 (by simpa using hfront e he)
      refine .inr ⟨front, name, value, back, hentries, hearlier, hnot, ?_⟩
      rw [setVariables, hentries, checkVariables_of_not hearlier hnot]

/-- What can be done with a compiler. -/
inductive Change where
  | bindings (given : Dictionary String)
  | register (name : String) (callback : Callback)
  | unregister (name : String)

/-- The compiler after a change; one that is refused leaves it as it was. -/
def changedBy (c : Compiler) : Change → Compiler
  | .bindings given => (c.setVariables given).toOption.getD c
  | .register name callback => (c.register name callback).toOption.getD c
  | .unregister name => c.unregister name

def after (c : Compiler) (changes : List Change) : Compiler := changes.foldl changedBy c

/-- All names that are stored are identifiers. -/
def StoresIdentifiers (c : Compiler) : Prop := ∀ e ∈ c.bindings.entries, IsIdentifier e.1.toList

theorem storesIdentifiers_changedBy (h : c.StoresIdentifiers) (x : Change) :
    (c.changedBy x).StoresIdentifiers := by
  cases x with
  | bindings given =>
      rw [changedBy]
      rcases c.setVariables_cases given with ⟨hall, hset⟩ | ⟨-, name, -, -, -, -, -, hset⟩
      · rw [hset]
        intro e he
        obtain ⟨a, ha, -, rfl⟩ := (mem_storeAll_iff hall).1 he
        exact hall a ha
      · rw [hset]
        exact h
  | register name callback =>
      rw [changedBy, register]
      cases c.functions.register name callback with
      | error e => exact h
      | ok functions => exact h
  | unregister name => exact h

theorem storesIdentifiers_after (h : c.StoresIdentifiers) (changes : List Change) :
    (c.after changes).StoresIdentifiers := by
  induction changes generalizing c with
  | nil => exact h
  | cons x changes ih => exact ih (storesIdentifiers_changedBy h x)

/-- Whatever was done with a compiler, the names that it stores are identifiers. Setting variables
then succeeds or is refused. When it succeeds, each given variable is stored under its name without
`$` and with its own value, except those that are hidden, and nothing else is; so none is lost
exactly when none is hidden. The program has a line for each stored variable, in the order of their
names, and then the statement. When it is refused, the first name that is no identifier is shown and
nothing has changed. -/
theorem setVariables_all_or_none (engine : Engine) (production : Bool) (changes : List Change)
    (given : Dictionary String) :
    let c := (new engine production).after changes
    (∀ e ∈ c.bindings.entries, IsIdentifier e.1.toList) ∧
      (((∀ e ∈ given.entries, IsIdentifier (bareName e.1).toList) ∧
          ∃ stored : Dictionary String, c.setVariables given = .ok { c with bindings := stored } ∧
            stored.entries.Perm ((given.entries.filter fun e => ¬ IsHidden given e.1).map
              fun e => (bareName e.1, e.2)) ∧
            (stored.entries.length = given.entries.length ↔
              ∀ e ∈ given.entries, ¬ IsHidden given e.1) ∧
            stored.entries.Pairwise (fun a b => a.1 < b.1) ∧
            ∀ statement, { c with bindings := stored }.program statement =
              "".intercalate (stored.entries.map fun e =>
                "$" ++ e.1 ++ ": " ++ (if isAllBlank e.2.toList then "null" else e.2) ++ ";\n") ++
                statement ++ ";\n") ∨
        ∃ front name value back, given.entries = front ++ (name, value) :: back ∧
          (∀ e ∈ front, IsIdentifier (bareName e.1).toList) ∧
          ¬ IsIdentifier (bareName name).toList ∧
          c.setVariables given = .error (.invalidVariable name) ∧
          c.changedBy (.bindings given) = c) := by
  intro c
  have hempty : (new engine production).StoresIdentifiers := fun e he => nomatch he
  refine ⟨storesIdentifiers_after hempty changes, ?_⟩
  rcases c.setVariables_cases given with
    ⟨hall, hset⟩ | ⟨front, name, value, back, hentries, hfront, hname, hset⟩
  · have hperm := perm_storeAll hall
    refine .inl ⟨hall, storeAll .empty given.entries, hset, hperm, ?_, Dictionary.sorted _,
      fun statement => rfl⟩
    rw [hperm.length_eq, List.length_map, List.length_filter_eq_length_iff]
    simp only [decide_eq_true_eq]
  · refine .inr ⟨front, name, value, back, hentries, hfront, hname, hset, ?_⟩
    rw [changedBy, hset]
    rfl

/-- One name, with and without `$`. -/
def namedTwice : Dictionary String := .ofList [("$a", "1"), ("a", "2")]

/-- The value of one of them is lost, without an error. -/
theorem setVariables_hidden (c : Compiler) :
    namedTwice.entries = [("$a", "1"), ("a", "2")] ∧
      c.setVariables namedTwice = .ok { c with bindings := .ofList [("a", "2")] } ∧
      { c with bindings := .ofList [("a", "2")] }.program "@import \"b.scss\"" =
        "$a: 2;\n@import \"b.scss\";\n" := by
  have hcheck : checkVariables .empty namedTwice.entries = .ok (.ofList [("a", "2")]) := by
    decide +kernel
  refine ⟨by decide +kernel, ?_, ?_⟩
  · rw [setVariables, hcheck]
  · have hprogram : "".intercalate ((Dictionary.ofList [("a", "2")]).entries.map fun e =>
        variableLine e.1 e.2) ++ "@import \"b.scss\"" ++ ";\n" =
        "$a: 2;\n@import \"b.scss\";\n" := by
      decide +kernel
    exact hprogram

end Compiler

end StyleBuild
