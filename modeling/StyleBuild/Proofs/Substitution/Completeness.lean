import StyleBuild.Proofs.Substitution.Literals
import StyleBuild.Proofs.Substitution.Origin
import StyleBuild.Proofs.Substitution.Sightings

/-!
# Which calls are replaced

Three things can be passed over in a text: a call, a literal with a name in it,
and an opening that is left alone, because it is a definition or is not closed.
What is passed over is each of them that nothing passed over before reaches up
to (`mem_passed_iff`).

A call that stands in the text and in no arguments of a replaced one is replaced
exactly when nothing that was passed over ends directly in front of it
(`expand_replaces_iff`). So of two calls in a row only the first one is
replaced (`expand_adjacent`).
-/

namespace StyleBuild.Substitution

open Text

/-- ASCII letters, digits, `_` and `-`, a letter or `_` first. -/
structure IsIdentifier (name : List Char) : Prop where
  first : ∃ c ∈ name.head?, c.isAlpha = true ∨ c = '_'
  all : ∀ c ∈ name, c.isAlphanum = true ∨ c = '_' ∨ c = '-'

/-- A position behind the start of a region and not behind its end. -/
def Region.ReachesTo (r : Region) (position : Nat) : Prop := r.start < position ∧ position ≤ r.stop

/-- The position lies in the text between the parentheses. -/
def Call.ArgumentsHave (c : Call) (position : Nat) : Prop :=
  c.start + c.name.length < position ∧ position + 1 < c.stop

instance (c : Call) (position : Nat) : Decidable (c.ArgumentsHave position) :=
  inferInstanceAs (Decidable (_ ∧ _))

/-- What can be passed over where a name is seen. -/
inductive Passable (names : List (List Char)) (source : List Char) : Region → Prop
  | call (c : Call) (h : c.StandsIn names source) : Passable names source ⟨c.start, c.stop⟩
  | literal (before name rest : List Char) (hopens : OpensBetween names source before name rest)
      (r : Region) (hr : r ∈ literalRegions source) (hhas : r.has before.length = true) :
      Passable names source ⟨before.length, r.stop⟩
  | opening (before name rest : List Char) (hopens : OpensBetween names source before name rest)
      (houtside : ∀ r ∈ literalRegions source, r.has before.length = false)
      (hleft : "@function".toList <:+ trimEnd before ∨ closingOffset (.code 0) rest = none) :
      Passable names source ⟨before.length, before.length + name.length + 1⟩

variable {names : List (List Char)} {source before name rest : List Char} {c d : Call}
  {x y : Region}

theorem toNat_lt_of_isAlphanum {c : Char} (h : c.isAlphanum = true) : c.toNat < 0x80 := by
  delta Char.isAlphanum Char.isAlpha Char.isUpper Char.isLower Char.isDigit at h
  simp only [Bool.or_eq_true, Bool.and_eq_true, decide_eq_true_eq, UInt32.le_iff_toNat_le,
    ge_iff_le] at h
  have hchar : c.toNat = c.val.toNat := rfl
  have hZ : 'Z'.val.toNat = 90 := rfl
  have hz : 'z'.val.toNat = 122 := rfl
  have h9 : '9'.val.toNat = 57 := rfl
  omega

theorem IsIdentifier.isBoundary_eq_false (h : IsIdentifier name) :
    ∀ c ∈ name, isBoundary c = false := by
  intro c hc
  rw [Bool.eq_false_iff, Ne, isBoundary_iff]
  rintro ⟨hword, -, hdash, -⟩
  rcases h.all c hc with halnum | rfl | rfl
  · rw [isWord_of_isAlphanum c halnum (toNat_lt_of_isAlphanum halnum)] at hword
    cases hword
  · revert hword
    decide
  · exact hdash rfl

/-- A call that stands in a text is what is made of its opening. -/
theorem sight_of_standsBetween {after : List Char}
    (h : c.StandsBetween names (literalRegions source) before after) :
    sight (literalRegions source) before.reverse before.length c.name
      (c.arguments ++ ')' :: after) = .call c := by
  have hfind : (literalRegions source).find? (·.has before.length) = none :=
    List.find?_eq_none.2 fun r hr => by rw [← h.start, h.outside r hr]; decide
  have hfollows : followsDefinition before.reverse = false := by
    rw [Bool.eq_false_iff, Ne, followsDefinition_iff, List.reverse_reverse]
    exact h.no_definition
  have hstart := h.start
  have hstop := h.stop
  rw [Call.length_text] at hstop
  have hend : before.length + c.name.length + 1 + c.arguments.length + 1 = c.stop := by omega
  unfold sight
  simp only [hfind, hfollows, Bool.false_eq_true, if_false, h.closing, List.take_left, hend]
  rw [← hstart]

/-- An opening in a literal is passed over with the literal. -/
theorem sight_of_has (hr : x ∈ literalRegions source) (hhas : x.has before.length = true) :
    sight (literalRegions source) before.reverse before.length name rest =
      .pass (x.stop - before.length) := by
  unfold sight
  split
  · next r hfind =>
    have hhas' : r.has before.length = true := by simpa using List.find?_some hfind
    rw [eq_of_has hr (List.mem_of_find?_eq_some hfind) hhas hhas']
  · next hfind => exact absurd hhas (List.find?_eq_none.1 hfind x hr)

/-- An opening that is left alone is passed over by itself. -/
theorem sight_of_left (houtside : ∀ r ∈ literalRegions source, r.has before.length = false)
    (hleft : "@function".toList <:+ trimEnd before ∨ closingOffset (.code 0) rest = none) :
    sight (literalRegions source) before.reverse before.length name rest =
      .pass (name.length + 1) := by
  have hfind : (literalRegions source).find? (·.has before.length) = none :=
    List.find?_eq_none.2 fun r hr => by rw [houtside r hr]; decide
  have hnone : (if followsDefinition before.reverse then none
      else closingOffset (.code 0) rest) = none := by
    rcases hleft with hdefinition | hunclosed
    · rw [if_pos ((followsDefinition_iff _).2 (by rwa [List.reverse_reverse]))]
    · rw [hunclosed, ite_self]
  unfold sight
  simp only [hfind, hnone]

theorem Call.StandsIn.exists_opens (h : c.StandsIn names source) :
    ∃ before after, OpensBetween names source before c.name (c.arguments ++ ')' :: after) ∧
      c.start = before.length ∧
      sight (literalRegions source) before.reverse before.length c.name
        (c.arguments ++ ')' :: after) = .call c := by
  obtain ⟨before, after, htext, hbetween⟩ := h
  refine ⟨before, after, ⟨?_, hbetween.name, fun b hb => ?_⟩, hbetween.start,
    sight_of_standsBetween hbetween⟩
  · rw [htext, Call.text]
    simp
  · exact (isBoundary_iff b).2 (hbetween.boundary b hb)

theorem mem_passed_of_mem {i : Nat} {sighting : Sighting}
    (h : (i, sighting) ∈ sightings names source) : ⟨i, sighting.stop i⟩ ∈ passed names source :=
  List.mem_map.2 ⟨_, h, rfl⟩

theorem mem_passed_of_mem_calls (h : c ∈ calls names source) :
    ⟨c.start, c.stop⟩ ∈ passed names source := by
  obtain ⟨i, hi⟩ := mem_calls_iff.1 h
  obtain ⟨front, name, rest, -, he⟩ := exists_opens_of_mem_sightings hi
  obtain ⟨rfl, hsight⟩ := Prod.mk.inj he
  rw [start_of_sight hsight.symm]
  exact mem_passed_of_mem hi

theorem start_lt_stop_of_mem_passed (h : x ∈ passed names source) : x.start < x.stop := by
  obtain ⟨e, he, rfl⟩ := List.mem_map.1 h
  obtain ⟨front, name, rest, -, rfl⟩ := exists_opens_of_mem_sightings he
  exact lt_stop_sight _ _ _ _ _

/-- Nothing that is passed over reaches up to the start of anything else that is. -/
theorem not_reachesTo_of_mem (hx : x ∈ passed names source) (hy : y ∈ passed names source) :
    ¬ x.ReachesTo y.start := by
  have hpairwise : (passed names source).Pairwise fun a b => a.start < b.start ∧ a.stop < b.start :=
    List.pairwise_map.2 pairwise_sightingsFrom
  refine List.Pairwise.forall_of_forall_of_flip (R := fun a b => ¬ a.ReachesTo b.start)
    (fun a _ h => Nat.lt_irrefl _ h.1) (hpairwise.imp fun {a b} h hreach => ?_)
    (hpairwise.imp fun {a b} h hreach => ?_) hx hy
  · exact Nat.lt_irrefl _ (h.2.trans_le hreach.2)
  · exact Nat.lt_asymm h.1 hreach.1

section Plain

variable (hnames : ∀ name ∈ names, ∀ b ∈ name, isBoundary b = false)
include hnames

/-- What is passed over at an opening can be. -/
theorem passable_of_opens (hopens : OpensBetween names source before name rest) :
    Passable names source ⟨before.length,
      (sight (literalRegions source) before.reverse before.length name rest).stop
        before.length⟩ := by
  cases hsight : sight (literalRegions source) before.reverse before.length name rest with
  | call c =>
      have hboundary : ∀ b, before.reverse.head? = some b → isBoundary b = true :=
        fun b hb => hopens.boundary b (by rwa [← List.head?_reverse])
      obtain ⟨hstart, after, htext, hbetween⟩ := standsBetween_of_sight
        (nameAt?_of_mem hnames hopens.name) hsight List.length_reverse.symm hboundary
      rw [List.reverse_reverse] at hbetween
      rw [← hstart]
      exact .call c ⟨before, after, by rw [hopens.text, htext], hbetween⟩
  | pass length =>
      unfold sight at hsight
      split at hsight
      · next r hfind =>
        have hhas := List.find?_some hfind
        cases hsight
        have hle := ((Region.has_iff r _).1 hhas).2.le
        rw [Sighting.stop, Nat.add_sub_cancel' hle]
        exact .literal before name rest hopens r (List.mem_of_find?_eq_some hfind) hhas
      · next hfind =>
        split at hsight
        · next hnone =>
          cases hsight
          refine .opening before name rest hopens
            (fun r hr => Bool.eq_false_iff.2 (List.find?_eq_none.1 hfind r hr)) ?_
          split at hnone
          · next hfollows =>
            rw [followsDefinition_iff, List.reverse_reverse] at hfollows
            exact .inl hfollows
          · exact .inr hnone
        · cases hsight

/-- What can be passed over are the openings, each up to where reading goes on behind it. -/
theorem passable_iff : Passable names source x ↔
    ∃ front name rest, OpensBetween names source front name rest ∧
      x = ⟨front.length, (sight (literalRegions source) front.reverse front.length name rest).stop
        front.length⟩ := by
  constructor
  · rintro (⟨c, h⟩ | ⟨before, name, rest, hopens, r, hr, hhas⟩ |
      ⟨before, name, rest, hopens, houtside, hleft⟩)
    · obtain ⟨before, after, hopens, hstart, hsight⟩ := h.exists_opens
      exact ⟨before, _, _, hopens, by rw [hsight, hstart]; rfl⟩
    · refine ⟨before, name, rest, hopens, ?_⟩
      have hle := ((Region.has_iff r _).1 hhas).2.le
      rw [sight_of_has hr hhas, Sighting.stop, Nat.add_sub_cancel' hle]
    · exact ⟨before, name, rest, hopens, by rw [sight_of_left houtside hleft]; rfl⟩
  · rintro ⟨before, name, rest, hopens, rfl⟩
    exact passable_of_opens hnames hopens

theorem mem_sightings_or_reached {front : List Char}
    (hopens : OpensBetween names source front name rest) :
    (front.length, sight (literalRegions source) front.reverse front.length name rest) ∈
        sightings names source ∨
      ∃ x ∈ passed names source, x.ReachesTo front.length := by
  have hbegin : OpensBetween names (([] : List Char).reverse ++ source) front name rest := hopens
  have hle : 0 + 0 ≤ front.length := Nat.zero_le _
  have hfree : front.length = 0 + 0 → 0 = 0 ∧ true = true := fun _ => ⟨rfl, rfl⟩
  rcases mem_sightingsFrom_or_covered hnames rfl hbegin hle hfree with hmem | ⟨e, he, hcover⟩
  · exact .inl hmem
  · exact .inr ⟨_, mem_passed_of_mem he, hcover⟩

/-- Passed over is whatever can be, unless something that was passed over before reaches up to
it. -/
theorem mem_passed_iff : x ∈ passed names source ↔
    Passable names source x ∧ ∀ y ∈ passed names source, ¬ y.ReachesTo x.start := by
  constructor
  · intro hx
    refine ⟨?_, fun y hy => not_reachesTo_of_mem hy hx⟩
    obtain ⟨e, he, rfl⟩ := List.mem_map.1 hx
    obtain ⟨front, name, rest, hopens, rfl⟩ := exists_opens_of_mem_sightings he
    exact (passable_iff hnames).2 ⟨front, name, rest, hopens, rfl⟩
  · rintro ⟨hpassable, hfree⟩
    obtain ⟨front, name, rest, hopens, rfl⟩ := (passable_iff hnames).1 hpassable
    rcases mem_sightings_or_reached hnames hopens with hmem | ⟨y, hy, hreach⟩
    · exact mem_passed_of_mem hmem
    · exact absurd hreach (hfree y hy)

/-- A call that stands in the text is found, unless something that is passed over reaches up to
it. -/
theorem mem_calls_iff_of_standsIn (hc : c.StandsIn names source) :
    c ∈ calls names source ↔ ∀ x ∈ passed names source, ¬ x.ReachesTo c.start := by
  obtain ⟨before, after, hopens, hstart, hsight⟩ := hc.exists_opens
  constructor
  · exact fun hmem x hx => not_reachesTo_of_mem hx (mem_passed_of_mem_calls hmem)
  · intro hfree
    rcases mem_sightings_or_reached hnames hopens with hmem | ⟨x, hx, hreach⟩
    · exact mem_calls_iff.2 ⟨_, hsight ▸ hmem⟩
    · exact absurd (hstart ▸ hreach) (hfree x hx)

/-- No call starts in the name of an opening, nor at its parenthesis. -/
theorem not_in_name {front : List Char} (hopens : OpensBetween names source front name rest)
    (hc : c.StandsIn names source) :
    ¬ (front.length < c.start ∧ c.start ≤ front.length + name.length) := by
  rintro ⟨hlt, hle⟩
  obtain ⟨before, after, hopens', hstart, -⟩ := hc.exists_opens
  rw [hstart] at hlt hle
  have hlast : before.getLast? = name[before.length - 1 - front.length]? := by
    have hsource := congrArg (fun s : List Char => s[before.length - 1]?)
      (hopens'.text.symm.trans hopens.text)
    rw [List.getElem?_append_left (by omega), List.getElem?_append_right (by omega),
      List.getElem?_append_left (by omega)] at hsource
    rw [List.getLast?_eq_getElem?, hsource]
  rw [List.getElem?_eq_getElem (by omega)] at hlast
  have hboundary := hopens'.boundary _ hlast
  rw [hnames name hopens.name _ (List.getElem_mem _)] at hboundary
  cases hboundary

/-- A call that starts inside another one starts in its arguments. -/
theorem argumentsHave_of_lt (hd : d.StandsIn names source) (hc : c.StandsIn names source)
    (hstart : d.start < c.start) (hstop : c.start < d.stop) : d.ArgumentsHave c.start := by
  obtain ⟨before, after, hopens, hbefore, -⟩ := hd.exists_opens
  have hname := not_in_name hnames hopens hc
  refine ⟨by omega, Nat.lt_of_le_of_ne hstop fun hlast => ?_⟩
  -- the last character of a call is no beginning of a name
  obtain ⟨front, behind, hopens', hfront, -⟩ := hc.exists_opens
  obtain ⟨before', after', htext, hbetween⟩ := hd
  have hcut : source = (before' ++ (d.name ++ '(' :: d.arguments)) ++ ')' :: after' := by
    rw [htext, Call.text]
    simp
  have hlength : front.length = (before' ++ (d.name ++ '(' :: d.arguments)).length := by
    have hend := hbetween.stop
    have hbegin := hbetween.start
    rw [Call.length_text] at hend
    simp only [List.length_append, List.length_cons]
    omega
  obtain ⟨-, hopening⟩ := (hcut ▸ hopens').eq_of_length hlength
  cases hname : c.name with
  | nil =>
      rw [hname] at hopening
      cases hopening
  | cons b name =>
      have hparen : ')' ∈ c.name := by
        rw [hname] at hopening ⊢
        rw [(List.cons.inj hopening).1]
        exact List.mem_cons_self
      have hboundary := hnames c.name hopens'.name ')' hparen
      revert hboundary
      decide

/-- What reaches up to a call, and is no call with it in its arguments, ends directly in front of
it. -/
theorem stop_eq_of_reachesTo (hc : c.StandsIn names source)
    (hfree : ∀ d ∈ calls names source, ¬ d.ArgumentsHave c.start) (hx : x ∈ passed names source)
    (hreach : x.ReachesTo c.start) : x.stop = c.start := by
  obtain ⟨hlt, hle⟩ := hreach
  refine (Nat.eq_or_lt_of_le hle).elim Eq.symm fun hinside => ?_
  cases ((mem_passed_iff hnames).1 hx).1 with
  | call d hd =>
      have hmem := (mem_calls_iff_of_standsIn hnames hd).2 fun y hy => not_reachesTo_of_mem hy hx
      exact absurd (argumentsHave_of_lt hnames hd hc hlt hinside) (hfree d hmem)
  | literal before name rest hopens r hr hhas =>
      obtain ⟨front, after, -, hbetween⟩ := hc
      have houtside := hbetween.outside r hr
      have hstart := ((Region.has_iff r _).1 hhas).1
      rw [(Region.has_iff r _).2 ⟨hstart.trans hlt.le, hinside⟩] at houtside
      cases houtside
  | opening before name rest hopens houtside hleft =>
      exact absurd ⟨hlt, Nat.le_of_lt_succ hinside⟩ (not_in_name hnames hopens hc)

end Plain

namespace Registry

/-- An expansion is complete up to what is passed over. For names that are identifiers, what is
passed over is any call, literal with a name in it, or opening that is left alone, as long as
nothing that was passed over before reaches up to it. A call that stands in the text, and not in
the arguments of one that is replaced, is replaced exactly when nothing that is passed over ends
directly in front of it. -/
theorem expand_replaces_iff {r : Registry} {source : String} {expansion : Expansion}
    (hnames : ∀ name ∈ r.names, IsIdentifier name.toList)
    (h : r.expand source = .ok expansion) :
    (∃ replacements, r.answers (spans r.names source) = .ok replacements ∧
        expansion.text.toList = substitute source.toList replacements) ∧
      (∀ x, x ∈ passed (byLength r.names) source.toList ↔
        Passable (byLength r.names) source.toList x ∧
          ∀ y ∈ passed (byLength r.names) source.toList, ¬ y.ReachesTo x.start) ∧
      ∀ c : Call, c.StandsIn (byLength r.names) source.toList →
        (∀ d ∈ spans r.names source, ¬ d.ArgumentsHave c.start) →
        (c ∈ spans r.names source ↔
          ∀ x ∈ passed (byLength r.names) source.toList, x.stop ≠ c.start) := by
  have hplain : ∀ name ∈ byLength r.names, ∀ b ∈ name, isBoundary b = false := by
    intro name hname
    have hidentifier := hnames _ (ofList_mem_of_mem_byLength hname)
    rw [String.toList_ofList] at hidentifier
    exact hidentifier.isBoundary_eq_false
  refine ⟨answers_of_expand h, fun x => mem_passed_iff hplain, fun c hc hfree => ?_⟩
  rw [spans, mem_calls_iff_of_standsIn hplain hc]
  refine forall₂_congr fun x hx => not_congr ⟨stop_eq_of_reachesTo hplain hc hfree hx, ?_⟩
  intro hstop
  exact ⟨hstop ▸ start_lt_stop_of_mem_passed hx, hstop.ge⟩

/-- The function `f` answers `x`. -/
def constantRegistry : Registry := ⟨.ofList [("f", fun _ => .ok "x")]⟩

theorem names_constant : constantRegistry.names = ["f"] := rfl

theorem byLength_constant : byLength constantRegistry.names = ["f".toList] := by
  rw [names_constant, byLength, List.mergeSort_singleton]
  rfl

theorem isIdentifier_constant : ∀ name ∈ constantRegistry.names, IsIdentifier name.toList := by
  rw [names_constant]
  intro name hname
  rw [List.mem_singleton.1 hname]
  exact ⟨⟨'f', rfl, by decide⟩, by simp⟩

/-- One call directly behind another one, and one directly behind a literal with a name in it. -/
def adjacentCalls : String := "f(1)f(2) \"f(\"f(3) f(4)"

theorem spans_adjacentCalls : spans constantRegistry.names adjacentCalls =
    [⟨0, "f".toList, "1".toList, 4⟩, ⟨18, "f".toList, "4".toList, 22⟩] := by
  rw [spans, byLength_constant]
  decide +kernel

theorem expand_adjacentCalls : constantRegistry.expand adjacentCalls =
    .ok ⟨"xf(2) \"f(\"f(3) x", true⟩ := by
  rw [expand_eq, spans_adjacentCalls]
  decide +kernel

/-- The second call stands in the text. -/
theorem standsIn_adjacentCalls :
    (⟨4, "f".toList, "2".toList, 8⟩ : Call).StandsIn (byLength constantRegistry.names)
      adjacentCalls.toList := by
  rw [byLength_constant]
  refine ⟨"f(1)".toList, " \"f(\"f(3) f(4)".toList, by decide +kernel, ?_⟩
  exact
    { name := by decide
      start := by decide
      stop := by decide
      boundary := fun b hb => by cases hb; decide +kernel
      outside := by decide +kernel
      no_definition := by decide +kernel
      closing := by decide +kernel }

theorem expand_replaces_iff_adjacentCalls :
    (∀ name ∈ constantRegistry.names, IsIdentifier name.toList) ∧
      constantRegistry.expand adjacentCalls = .ok ⟨"xf(2) \"f(\"f(3) x", true⟩ ∧
      (⟨4, "f".toList, "2".toList, 8⟩ : Call) ∉ spans constantRegistry.names adjacentCalls ∧
      passed (byLength constantRegistry.names) adjacentCalls.toList =
        [⟨0, 4⟩, ⟨10, 13⟩, ⟨18, 22⟩] := by
  have hpassed : passed (byLength constantRegistry.names) adjacentCalls.toList =
      [⟨0, 4⟩, ⟨10, 13⟩, ⟨18, 22⟩] := by
    rw [byLength_constant]
    decide +kernel
  obtain ⟨-, -, hreplaces⟩ := expand_replaces_iff isIdentifier_constant expand_adjacentCalls
  refine ⟨isIdentifier_constant, expand_adjacentCalls, fun hmem => ?_, hpassed⟩
  have hends := (hreplaces _ standsIn_adjacentCalls (by rw [spans_adjacentCalls]; decide)).1 hmem
  rw [hpassed] at hends
  exact hends ⟨0, 4⟩ List.mem_cons_self rfl

/-- Behind a call that is replaced, and behind a literal with a name in it, a call is left as it
is; behind a literal without one it is replaced. -/
theorem expand_adjacent :
    (⟨4, "f".toList, "2".toList, 8⟩ : Call).StandsIn (byLength constantRegistry.names)
        adjacentCalls.toList ∧
      (∀ d ∈ spans constantRegistry.names adjacentCalls, ¬ d.ArgumentsHave 4) ∧
      constantRegistry.expand adjacentCalls = .ok ⟨"xf(2) \"f(\"f(3) x", true⟩ ∧
      constantRegistry.expand "\"g(\"f(3)" = .ok ⟨"\"g(\"x", true⟩ := by
  have hspans : spans constantRegistry.names "\"g(\"f(3)" =
      [⟨4, "f".toList, "3".toList, 8⟩] := by
    rw [spans, byLength_constant]
    decide +kernel
  refine ⟨standsIn_adjacentCalls, by rw [spans_adjacentCalls]; decide, expand_adjacentCalls, ?_⟩
  rw [expand_eq, hspans]
  decide +kernel

end Registry

end StyleBuild.Substitution
