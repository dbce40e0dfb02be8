import Mathlib.Data.List.Infix
import StyleBuild.Proofs.Substitution.Spans

/-!
# What is passed over in a text

A text is judged at every place where a name is seen: a call that is replaced, a
literal that the name lies in, or an opening that is left alone. Each of them is
passed over, and reading goes on behind it. `sightings` lists these places with
what is made of them, and the calls are among them (`callsFrom_eq`).

An opening `name(` is seen exactly when nothing that was passed over reaches up
to it (`mem_sightingsFrom_or_covered` and `pairwise_sightingsFrom`): the character in
front of it has to be read as a boundary, and what was passed over is not read
again.
-/

namespace StyleBuild.Substitution

open Text

/-- Where reading goes on behind a place. -/
def Sighting.stop (position : Nat) : Sighting → Nat
  | .pass length => position + length
  | .call c => c.stop

def Sighting.call? : Sighting → Option Call
  | .pass _ => none
  | .call c => some c

/-- The places where a name is seen, each with what is made of it; the arguments are those of
`callsFrom`. -/
def sightingsFrom (names : List (List Char)) (regions : List Region) (before : List Char)
    (position skip : Nat) (free : Bool) : List Char → List (Nat × Sighting)
  | [] => []
  | c :: s =>
    match skip with
    | skip + 1 => sightingsFrom names regions (c :: before) (position + 1) skip false s
    | 0 =>
      match (if free then nameAt? names (c :: s) else none) with
      | none => sightingsFrom names regions (c :: before) (position + 1) 0 (isBoundary c) s
      | some (name, rest) =>
        (position, sight regions before position name rest) ::
          sightingsFrom names regions (c :: before) (position + 1)
            ((sight regions before position name rest).stop position - position - 1) false s

def sightings (names : List (List Char)) (source : List Char) : List (Nat × Sighting) :=
  sightingsFrom names (literalRegions source) [] 0 0 true source

/-- What is passed over, in order. -/
def passed (names : List (List Char)) (source : List Char) : List Region :=
  (sightings names source).map fun e => ⟨e.1, e.2.stop e.1⟩

/-- `name(` stands between these texts, with a boundary in front of it. -/
structure OpensBetween (names : List (List Char)) (source before name rest : List Char) : Prop where
  text : source = before ++ (name ++ '(' :: rest)
  name : name ∈ names
  boundary : ∀ b, before.getLast? = some b → isBoundary b = true

variable {names : List (List Char)} {regions : List Region} {before s source name rest : List Char}
variable {position skip : Nat} {free : Bool} {c : Call}

/-- The calls are the sightings that are calls. -/
theorem callsFrom_eq : callsFrom names regions before position skip free s =
    (sightingsFrom names regions before position skip free s).filterMap fun e => e.2.call? := by
  fun_induction callsFrom names regions before position skip free s with
  | case1 => rfl
  | case2 before position free a s skip ih => rw [sightingsFrom, ih]
  | case3 before position free a s hname ih => rw [sightingsFrom, hname, ih]
  | case4 before position free a s name rest hname length hsight ih =>
      rw [sightingsFrom, hname]
      simp only [hsight]
      rw [List.filterMap_cons_none rfl, ih, Sighting.stop, Nat.add_sub_cancel_left]
  | case5 before position free a s name rest hname call hsight ih =>
      rw [sightingsFrom, hname]
      simp only [hsight]
      rw [List.filterMap_cons, ih]
      rfl

theorem mem_calls_iff : c ∈ calls names source ↔ ∃ i, (i, .call c) ∈ sightings names source := by
  rw [calls, callsFrom_eq, List.mem_filterMap]
  constructor
  · rintro ⟨⟨i, sighting⟩, hmem, hcall⟩
    cases sighting with
    | pass length => cases hcall
    | call c' =>
        cases hcall
        exact ⟨i, hmem⟩
  · rintro ⟨i, hmem⟩
    exact ⟨_, hmem, rfl⟩

/-- Something is passed over at every sighting. -/
theorem lt_stop_sight (regions : List Region) (before : List Char) (position : Nat)
    (name rest : List Char) :
    position < (sight regions before position name rest).stop position := by
  unfold sight
  split
  · next r hfind =>
    have hhas := List.find?_some hfind
    simp only [Region.has, Bool.and_eq_true, decide_eq_true_eq] at hhas
    rw [Sighting.stop]
    omega
  · split <;> simp only [Sighting.stop] <;> omega

theorem start_of_sight (h : sight regions before position name rest = .call c) :
    c.start = position := by
  unfold sight at h
  split at h
  · cases h
  · split at h
    · cases h
    · cases h
      rfl

/-- Nothing is seen in what is skipped, nor directly behind it. -/
theorem le_of_mem_sightingsFrom {e : Nat × Sighting}
    (h : e ∈ sightingsFrom names regions before position skip free s) :
    position + skip ≤ e.1 ∧ (e.1 = position + skip → skip = 0 ∧ free = true) := by
  fun_induction sightingsFrom names regions before position skip free s with
  | case1 => cases h
  | case2 before position free a s skip ih =>
      obtain ⟨hle, hfree⟩ := ih h
      grind
  | case3 before position free a s hname ih =>
      obtain ⟨hle, hfree⟩ := ih h
      grind
  | case4 before position free a s name rest hname ih =>
      rcases List.mem_cons.1 h with rfl | h
      · refine ⟨Nat.le_refl _, fun _ => ⟨rfl, ?_⟩⟩
        by_contra hfree
        rw [if_neg hfree] at hname
        cases hname
      · obtain ⟨hle, hfree⟩ := ih h
        grind

/-- Reading goes on behind a sighting, and one more character is read before the next one. -/
theorem pairwise_sightingsFrom :
    (sightingsFrom names regions before position skip free s).Pairwise
      fun a b => a.1 < b.1 ∧ a.2.stop a.1 < b.1 := by
  fun_induction sightingsFrom names regions before position skip free s with
  | case1 => exact List.Pairwise.nil
  | case2 before position free a s skip ih => exact ih
  | case3 before position free a s hname ih => exact ih
  | case4 before position free a s name rest hname ih =>
      refine List.pairwise_cons.2 ⟨fun e he => ?_, ih⟩
      obtain ⟨hle, hfree⟩ := le_of_mem_sightingsFrom he
      have hlt := lt_stop_sight regions before position name rest
      have hne : e.1 ≠ position + 1 +
          ((sight regions before position name rest).stop position - position - 1) :=
        fun heq => nomatch (hfree heq).2
      constructor <;> simp only <;> omega

/-- At a sighting there is an opening, and it is judged by what is in front of it and behind. -/
theorem exists_opens_of_mem_sightingsFrom (hposition : position = before.length)
    (hboundary : free = true → ∀ b, before.head? = some b → isBoundary b = true)
    {e : Nat × Sighting} (h : e ∈ sightingsFrom names regions before position skip free s) :
    ∃ front name rest, OpensBetween names (before.reverse ++ s) front name rest ∧
      e = (front.length, sight regions front.reverse front.length name rest) := by
  fun_induction sightingsFrom names regions before position skip free s with
  | case1 => cases h
  | case2 before position free a s skip ih =>
      have hlater := ih (by rw [hposition, List.length_cons]) (fun hf => nomatch hf) h
      rwa [List.reverse_cons, List.append_assoc] at hlater
  | case3 before position free a s hname ih =>
      have hlater := ih (by rw [hposition, List.length_cons])
        (fun hfree b hb => by cases hb; exact hfree) h
      rwa [List.reverse_cons, List.append_assoc] at hlater
  | case4 before position free a s name rest hname ih =>
      rcases List.mem_cons.1 h with rfl | h
      · split at hname
        · next hfree =>
          obtain ⟨hmem, hs⟩ := nameAt?_eq_some hname
          refine ⟨before.reverse, name, rest, ⟨by rw [hs], hmem, fun b hb => ?_⟩, ?_⟩
          · rw [List.getLast?_reverse] at hb
            exact hboundary hfree b hb
          · rw [List.length_reverse, List.reverse_reverse, hposition]
        · cases hname
      · have hlater := ih (by rw [hposition, List.length_cons]) (fun hf => nomatch hf) h
        rwa [List.reverse_cons, List.append_assoc] at hlater

theorem exists_opens_of_mem_sightings {e : Nat × Sighting} (h : e ∈ sightings names source) :
    ∃ front name rest, OpensBetween names source front name rest ∧
      e = (front.length, sight (literalRegions source) front.reverse front.length name rest) :=
  exists_opens_of_mem_sightingsFrom rfl (fun _ b hb => by cases hb) h

/-- A text is cut in one way only at the first place of a character. -/
theorem eq_of_append_cons_eq {a b s t : List Char} {x : Char} (ha : x ∉ a) (hb : x ∉ b)
    (h : a ++ x :: s = b ++ x :: t) : a = b ∧ s = t := by
  rcases List.append_eq_append_iff.1 h with ⟨as, rfl, has⟩ | ⟨bs, rfl, hbs⟩
  · cases as with
    | nil => simpa using has
    | cons y as =>
        cases has
        simp at hb
  · cases bs with
    | nil => simpa [eq_comm] using hbs
    | cons y bs =>
        cases hbs
        simp at ha

/-- The opening at a position is what stands there. -/
theorem OpensBetween.eq_of_length {front : List Char}
    (h : OpensBetween names (before ++ s) front name rest)
    (hlength : front.length = before.length) : front = before ∧ s = name ++ '(' :: rest := by
  obtain ⟨hfront, hs⟩ := List.append_inj h.text hlength.symm
  exact ⟨hfront.symm, hs⟩

section Plain

variable (hnames : ∀ name ∈ names, ∀ b ∈ name, isBoundary b = false)
include hnames

theorem paren_notMem (h : name ∈ names) : '(' ∉ name := by
  intro hmem
  have hparen := hnames name h '(' hmem
  revert hparen
  decide

/-- No other name stands at the place of a name. -/
theorem nameAt?_of_mem (h : name ∈ names) :
    nameAt? names (name ++ '(' :: rest) = some (name, rest) := by
  have hsome : nameAt? names (name ++ '(' :: rest) ≠ none := by
    intro hnone
    have hmissed := List.findSome?_eq_none_iff.1 hnone name h
    rw [(afterStart?_eq_some_iff _ _ rest).2 (by simp)] at hmissed
    cases hmissed
  obtain ⟨⟨name', rest'⟩, hfound⟩ := Option.ne_none_iff_exists'.1 hsome
  obtain ⟨hmem, htext⟩ := nameAt?_eq_some hfound
  obtain ⟨rfl, rfl⟩ :=
    eq_of_append_cons_eq (paren_notMem hnames h) (paren_notMem hnames hmem) htext
  exact hfound

/-- An opening is seen, unless something that is passed over reaches up to it. -/
theorem mem_sightingsFrom_or_covered {front : List Char} (hposition : position = before.length)
    (hopens : OpensBetween names (before.reverse ++ s) front name rest)
    (hle : position + skip ≤ front.length)
    (hfree : front.length = position + skip → skip = 0 ∧ free = true) :
    (front.length, sight regions front.reverse front.length name rest) ∈
        sightingsFrom names regions before position skip free s ∨
      ∃ e ∈ sightingsFrom names regions before position skip free s,
        e.1 < front.length ∧ front.length ≤ e.2.stop e.1 := by
  fun_induction sightingsFrom names regions before position skip free s with
  | case1 before position skip free =>
      have hlength := congrArg List.length hopens.text
      simp only [List.length_append, List.length_reverse, List.length_cons, List.length_nil]
        at hlength
      omega
  | case2 before position free a s skip ih =>
      refine ih (by rw [hposition, List.length_cons]) ?_ (by omega) (fun heq => ?_)
      · rwa [List.reverse_cons, List.append_assoc]
      · exact absurd (hfree (by omega)).1 (Nat.succ_ne_zero skip)
  | case3 before position free a s hname ih =>
      have hnext : OpensBetween names ((a :: before).reverse ++ s) front name rest := by
        rwa [List.reverse_cons, List.append_assoc]
      rcases Nat.eq_or_lt_of_le hle with heq | hlt
      · obtain ⟨-, hs⟩ := hopens.eq_of_length (by rw [List.length_reverse]; omega)
        rw [if_pos (hfree heq.symm).2, hs, nameAt?_of_mem hnames hopens.name] at hname
        cases hname
      · refine ih (by rw [hposition, List.length_cons]) hnext hlt fun heq => ⟨rfl, ?_⟩
        obtain ⟨rfl, -⟩ := hnext.eq_of_length (by
          rw [List.length_reverse, List.length_cons]
          omega)
        exact hopens.boundary a (by rw [List.reverse_cons, List.getLast?_concat])
  | case4 before position free a s name' rest' hname ih =>
      have hnext : OpensBetween names ((a :: before).reverse ++ s) front name rest := by
        rwa [List.reverse_cons, List.append_assoc]
      rcases Nat.eq_or_lt_of_le hle with heq | hlt
      · obtain ⟨rfl, hs⟩ := hopens.eq_of_length (by rw [List.length_reverse]; omega)
        rw [if_pos (hfree heq.symm).2, hs, nameAt?_of_mem hnames hopens.name] at hname
        cases hname
        refine .inl (List.mem_cons.2 (.inl ?_))
        rw [List.length_reverse, List.reverse_reverse, hposition]
      · rcases Nat.lt_or_ge ((sight regions before position name' rest').stop position)
          front.length with hbehind | hup
        · have hstop := lt_stop_sight regions before position name' rest'
          rcases ih (by rw [hposition, List.length_cons]) hnext (by omega) (by omega) with
            hmem | ⟨e, he, hcover⟩
          · exact .inl (List.mem_cons_of_mem _ hmem)
          · exact .inr ⟨e, List.mem_cons_of_mem _ he, hcover⟩
        · exact .inr ⟨_, List.mem_cons_self, hlt, hup⟩

end Plain

end StyleBuild.Substitution
