import StyleBuild.Proofs.Substitution.ByteLiterals
import StyleBuild.Proofs.Substitution.Registration

/-!
# The course of an expansion

An expansion goes over the bytes of a text in turns. Each turn starts at a cursor,
seeks the next name from there on, cuts what it needs out of the text and puts the
cursor behind what it passed over. A part of the text can be cut out only where no
character is cut in two, so a turn might have no outcome (`turn?`).

Every turn has one (`exists_turn`), and puts the cursor further. So the turns come
to an end (`exists_passage`), and what they put together is the outcome of the
expansion (`expand_advances`).
-/

namespace StyleBuild.Substitution

open Text

variable {names : List (List Char)} {regions : List Region}
  {before s source ahead name rest : List Char} {position k p : Nat} {free : Bool}

/-- The first place where a name is seen: the text in front of it, and the name. `free` says
whether a name may start at once. -/
def seek (names : List (List Char)) (free : Bool) : List Char → Option (List Char × List Char)
  | [] => none
  | c :: s =>
    match (if free then nameAt? names (c :: s) else none) with
    | none => (seek names (isBoundary c) s).map fun e => (c :: e.1, e.2)
    | some (name, _) => some ([], name)

/-- One turn of an expansion, by the bytes of the text: the name that was seen, the bounds of the
parts that were cut out, what is kept, and the call that is replaced. -/
structure Turn where
  cursor : Nat
  name : List Char
  bounds : List Nat
  kept : List Char
  call : Option Call
  next : Nat
  deriving DecidableEq, Repr

/-- What is done about the name that is seen at `start`, unless a character would be cut in two. -/
def turn? (regions : List Region) (source : List Char) (cursor start : Nat) (name : List Char) :
    Option Turn :=
  match regions.find? (·.has start) with
  | some literal => do
    let kept ← slice? source cursor literal.stop
    return ⟨cursor, name, [literal.stop], kept, none, literal.stop⟩
  | none => do
    let opening := start + byteSize name + 1
    let before ← slice? source 0 start
    let rest ← slice? source opening (byteSize source)
    match (if followsDefinition before.reverse then none else closingOffset (.code 0) rest) with
    | none =>
      let kept ← slice? source cursor opening
      return ⟨cursor, name, [start, opening], kept, none, opening⟩
    | some n =>
      let close := opening + byteOffset rest n
      let arguments ← slice? source opening close
      let kept ← slice? source cursor start
      return ⟨cursor, name, [start, opening, close], kept,
        some ⟨start, name, arguments, close + 1⟩, close + 1⟩

/-- What is done at a cursor: a turn, or the end of the expansion with what is left of the text. -/
inductive Action where
  | finish (rest : List Char)
  | go (turn : Turn)
  deriving DecidableEq, Repr

def act? (names : List (List Char)) (regions : List Region) (source : List Char) (cursor : Nat) :
    Option Action := do
  let (front, back) ← cutAt? source cursor
  match seek names front.isEmpty back with
  | none => return .finish back
  | some (ahead, name) => return .go (← turn? regions source cursor (cursor + byteSize ahead) name)

/-- The turns from a cursor on, and what is left behind the last one. -/
inductive Passage (names : List (List Char)) (regions : List Region) (source : List Char) :
    Nat → List Turn → List Char → Prop
  | finish {cursor rest} : act? names regions source cursor = some (.finish rest) →
      Passage names regions source cursor [] rest
  | go {cursor turn turns rest} : act? names regions source cursor = some (.go turn) →
      Passage names regions source turn.next turns rest →
      Passage names regions source cursor (turn :: turns) rest

theorem Passage.unique {cursor : Nat} {turns turns' : List Turn} {rest' : List Char}
    (h : Passage names regions source cursor turns rest)
    (h' : Passage names regions source cursor turns' rest') : turns' = turns ∧ rest' = rest := by
  induction h generalizing turns' with
  | finish hact =>
      cases h' with
      | finish hact' =>
          rw [hact, Option.some_inj, Action.finish.injEq] at hact'
          exact ⟨rfl, hact'.symm⟩
      | go hact' _ =>
          rw [hact] at hact'
          cases hact'
  | go hact _ ih =>
      cases h' with
      | finish hact' =>
          rw [hact] at hact'
          cases hact'
      | go hact' htail =>
          rw [hact, Option.some_inj, Action.go.injEq] at hact'
          subst hact'
          obtain ⟨rfl, rfl⟩ := ih htail
          exact ⟨rfl, rfl⟩

section Seek

/-- In what is passed over no call is listed. -/
theorem callsFrom_skip (before : List Char) (position : Nat) (a s : List Char) :
    callsFrom names regions before position a.length false (a ++ s) =
      callsFrom names regions (a.reverse ++ before) (position + a.length) 0 false s := by
  induction a generalizing before position with
  | nil => rfl
  | cons c a ih =>
      rw [List.length_cons, List.cons_append, callsFrom, ih, List.reverse_cons, List.append_assoc,
        List.singleton_append, Nat.add_assoc, Nat.add_comm 1]

theorem callsFrom_of_seek_eq_none (h : seek names free s = none) :
    callsFrom names regions before position 0 free s = [] := by
  fun_induction seek names free s generalizing before position with
  | case1 => rfl
  | case2 free c s hname ih =>
      rw [callsFrom, hname]
      exact ih (Option.map_eq_none_iff.1 h)
  | case3 => cases h

/-- What is seen first decides about the calls. -/
theorem exists_of_seek (h : seek names free s = some (ahead, name)) :
    ∃ rest, s = ahead ++ (name ++ '(' :: rest) ∧
      nameAt? names (name ++ '(' :: rest) = some (name, rest) ∧
      ∀ regions before position, callsFrom names regions before position 0 free s =
        callsFrom names regions (ahead.reverse ++ before) (position + ahead.length) 0 true
          (name ++ '(' :: rest) := by
  fun_induction seek names free s generalizing ahead with
  | case1 => cases h
  | case2 free c s hname ih =>
      obtain ⟨⟨ahead, name'⟩, hseek, heq⟩ := Option.map_eq_some_iff.1 h
      cases heq
      obtain ⟨rest, rfl, hname', hcalls⟩ := ih hseek
      refine ⟨rest, rfl, hname', fun regions before position => ?_⟩
      rw [callsFrom, hname]
      simp only [hcalls, List.reverse_cons, List.append_assoc, List.singleton_append,
        List.length_cons, Nat.add_assoc, Nat.add_comm 1]
  | case3 free c s name' rest hname =>
      cases h
      cases free with
      | false => cases hname
      | true =>
          obtain ⟨-, htext⟩ := nameAt?_eq_some hname
          rw [htext] at hname ⊢
          exact ⟨rest, rfl, hname, fun _ _ _ => rfl⟩

/-- Behind the name that is seen, reading goes on where the judgement says. -/
theorem callsFrom_of_nameAt? {stop : Nat} (hname : nameAt? names s = some (name, rest))
    (hstop : (sight regions before position name rest).stop position = stop)
    (hle : stop ≤ position + s.length) :
    callsFrom names regions before position 0 true s =
      (sight regions before position name rest).call?.toList ++
        callsFrom names regions ((s.take (stop - position)).reverse ++ before) stop 0 false
          (s.drop (stop - position)) := by
  have hlt := lt_stop_sight regions before position name rest
  obtain ⟨n, hn⟩ : ∃ n, stop = position + 1 + n := ⟨stop - position - 1, by omega⟩
  cases s with
  | nil => exact absurd (nameAt?_eq_some hname).2 (by simp)
  | cons c s =>
      have hlength : (s.take n).length = n := by
        rw [List.length_cons] at hle
        exact List.length_take_of_le (by omega)
      have hskip : callsFrom names regions (c :: before) (position + 1) (s.take n).length false
          (s.take n ++ s.drop n) = _ := callsFrom_skip _ _ _ _
      rw [List.take_append_drop, hlength, ← hn] at hskip
      have hsub : stop - position = n + 1 := by omega
      have hread : callsFrom names regions before position 0 true (c :: s) =
          (sight regions before position name rest).call?.toList ++
            callsFrom names regions (c :: before) (position + 1) n false s := by
        rw [callsFrom]
        simp only [if_true, hname]
        cases hsight : sight regions before position name rest with
        | pass length =>
            rw [hsight, Sighting.stop] at hstop
            have hn' : length - 1 = n := by omega
            simp only [hn', Sighting.call?, Option.toList_none, List.nil_append]
        | call call =>
            rw [hsight, Sighting.stop] at hstop
            have hn' : call.stop - position - 1 = n := by omega
            simp only [hn', Sighting.call?, Option.toList_some, List.singleton_append]
      rw [hread, hskip, hsub, List.take_succ_cons, List.drop_succ_cons, List.reverse_cons,
        List.append_assoc, List.singleton_append]

end Seek

section Bytes

/-- A call of a text at its bytes. -/
def Call.inBytes (s : List Char) (c : Call) : Call :=
  { c with start := byteOffset s c.start, stop := byteOffset s c.stop }

theorem Region.has_inBytes {r : Region} (hr : r.stop ≤ source.length) (hlt : r.start < r.stop)
    (hp : p ≤ source.length) : (r.inBytes source).has (byteOffset source p) = r.has p := by
  rw [Bool.eq_iff_iff, Region.has_iff, Region.has_iff, Region.inBytes,
    byteOffset_le_iff (by omega) hp, byteOffset_lt_iff hp hr]

/-- The literal that a position lies in can be found by bytes. -/
theorem find?_inBytes (hregions : ∀ r ∈ regions, r.start < r.stop ∧ r.stop ≤ source.length)
    (hp : p ≤ source.length) :
    (regions.map (Region.inBytes source)).find? (·.has (byteOffset source p)) =
      (regions.find? (·.has p)).map (Region.inBytes source) := by
  induction regions with
  | nil => rfl
  | cons r regions ih =>
      obtain ⟨⟨hlt, hle⟩, hregions⟩ := List.forall_mem_cons.1 hregions
      rw [List.map_cons, List.find?_cons, List.find?_cons, Region.has_inBytes hle hlt hp,
        ih hregions]
      cases r.has p <;> rfl

theorem slice?_byteOffset (hk : k ≤ p) (s : List Char) :
    slice? s (byteOffset s k) (byteOffset s p) = some ((s.drop k).take (p - k)) := by
  have hcut : s.take k ++ (s.drop k).take (p - k) = s.take p := by
    rw [← List.take_add, Nat.add_sub_cancel' hk]
  refine slice?_eq_some_iff.2 ⟨s.take k, s.drop p, ?_, rfl, by rw [hcut, byteOffset]⟩
  rw [← List.append_assoc, hcut, List.take_append_drop]

theorem cutAt?_byteOffset (s : List Char) (k : Nat) :
    cutAt? s (byteOffset s k) = some (s.take k, s.drop k) :=
  cutAt?_eq_some_iff.2 ⟨(List.take_append_drop k s).symm, rfl⟩

end Bytes

section Turns

/-- What is kept ends in front of a call, or with what is passed over. -/
def Sighting.keptTo (position : Nat) : Sighting → Nat
  | .pass length => position + length
  | .call c => c.start

/-- The turn is the one at position `k` of the text, where a name is seen at `p` and judged. -/
structure Turn.IsAt (source : List Char) (k p : Nat) (name : List Char) (sighting : Sighting)
    (turn : Turn) : Prop where
  cursor : turn.cursor = byteOffset source k
  name : turn.name = name
  bounds : ∀ b ∈ turn.bounds, ∃ j, k ≤ j ∧ j ≤ source.length ∧ b = byteOffset source j
  kept : turn.kept = (source.drop k).take (sighting.keptTo p - k)
  call : turn.call = sighting.call?.map (Call.inBytes source)
  next : turn.next = byteOffset source (sighting.stop p)
  inside : sighting.stop p ≤ source.length

theorem byteOffset_opening (hrest : source.drop p = name ++ '(' :: rest) :
    byteOffset source p + byteSize name + 1 = byteOffset source (p + name.length + 1) ∧
      source.drop (p + name.length + 1) = rest := by
  have htake : (name ++ '(' :: rest).take (name.length + 1) = name ++ ['('] := by
    rw [List.append_cons, List.take_left' (by rw [List.length_append, List.length_singleton])]
  have hsize : byteSize ['('] = 1 := rfl
  constructor
  · rw [Nat.add_assoc p, byteOffset_add, hrest, htake, byteSize_append, hsize, Nat.add_assoc]
  · rw [Nat.add_assoc, ← List.drop_drop, hrest, List.append_cons,
      List.drop_left' (by rw [List.length_append, List.length_singleton])]

/-- The byte of the parenthesis that closes a call, and the one behind it. -/
theorem byteOffset_closing {n : Nat} (hrest : source.drop p = rest)
    (hn : closingOffset (.code 0) rest = some n) :
    byteOffset source p + byteOffset rest n = byteOffset source (p + n) ∧
      byteOffset source (p + n) + 1 = byteOffset source (p + n + 1) := by
  obtain ⟨after, hafter⟩ := eq_of_closingOffset hn
  have hlength : (rest.take n).length = n := List.length_take_of_le (closingOffset_lt _ _ _ hn).le
  have hclose : rest.drop n = ')' :: after := by
    conv_lhs => rw [hafter]
    exact List.drop_left' hlength
  have hsize : byteSize [')'] = 1 := rfl
  constructor
  · rw [byteOffset_add, hrest]
    rfl
  · rw [byteOffset_add source (p + n) 1, ← List.drop_drop, hrest, hclose, List.take_succ_cons,
      List.take_zero, hsize]

/-- In a literal a turn goes on to its end. -/
theorem exists_turn_of_literal {literal : Region} (hp : p ≤ source.length)
    (hregions : ∀ r ∈ regions, r.start < r.stop ∧ r.stop ≤ source.length) (hk : k ≤ p)
    (hfind : regions.find? (·.has p) = some literal) :
    ∃ turn, turn? (regions.map (Region.inBytes source)) source (byteOffset source k)
        (byteOffset source p) name = some turn ∧
      turn.IsAt source k p name (.pass (literal.stop - p)) := by
  have hhas : literal.has p = true := by simpa using List.find?_some hfind
  obtain ⟨-, hle⟩ := hregions _ (List.mem_of_find?_eq_some hfind)
  rw [Region.has_iff] at hhas
  have hstop : p + (literal.stop - p) = literal.stop := by omega
  have hkept : slice? source (byteOffset source k) (literal.inBytes source).stop =
      some ((source.drop k).take (literal.stop - k)) := slice?_byteOffset (by omega) source
  unfold turn?
  simp only [find?_inBytes hregions hp, hfind, Option.map_some, hkept]
  exact ⟨_, rfl,
    { cursor := rfl
      name := rfl
      bounds := fun b hb => ⟨literal.stop, by omega, hle, List.mem_singleton.1 hb⟩
      kept := by rw [Sighting.keptTo, hstop]
      call := rfl
      next := by rw [Sighting.stop, hstop]; rfl
      inside := by rwa [Sighting.stop, hstop] }⟩

/-- What a turn reads outside of the literals: the text in front of the name, and the text behind
its opening. -/
theorem slice?_around (hrest : source.drop p = name ++ '(' :: rest) :
    slice? source 0 (byteOffset source p) = some (source.take p) ∧
      slice? source (byteOffset source (p + name.length + 1)) (byteSize source) = some rest := by
  have hlength := congrArg List.length hrest
  rw [List.length_drop, List.length_append, List.length_cons] at hlength
  obtain ⟨-, hbehind⟩ := byteOffset_opening hrest
  refine ⟨slice?_byteOffset (Nat.zero_le p) source, ?_⟩
  rw [← byteOffset_length, slice?_byteOffset (by omega), hbehind]
  exact congrArg some (List.take_of_length_le (by omega))

/-- An opening that is left alone is kept, and a turn goes on behind it. -/
theorem exists_turn_of_left (hregions : ∀ r ∈ regions, r.start < r.stop ∧ r.stop ≤ source.length)
    (hk : k ≤ p) (hrest : source.drop p = name ++ '(' :: rest)
    (hfind : regions.find? (·.has p) = none)
    (hclosing : (if followsDefinition (source.take p).reverse then none
      else closingOffset (.code 0) rest) = none) :
    ∃ turn, turn? (regions.map (Region.inBytes source)) source (byteOffset source k)
        (byteOffset source p) name = some turn ∧
      turn.IsAt source k p name (.pass (name.length + 1)) := by
  have hlength := congrArg List.length hrest
  rw [List.length_drop, List.length_append, List.length_cons] at hlength
  obtain ⟨hopening, -⟩ := byteOffset_opening hrest
  obtain ⟨hbefore, hbehind⟩ := slice?_around hrest
  have hkept := slice?_byteOffset (k := k) (p := p + name.length + 1) (by omega) source
  unfold turn?
  simp only [find?_inBytes hregions (show p ≤ source.length by omega), hfind, Option.map_none,
    hopening, hbefore, hbehind, hclosing, hkept, Option.bind_eq_bind, Option.bind_some]
  exact ⟨_, rfl,
    { cursor := rfl
      name := rfl
      bounds := by
        simp only [List.forall_mem_cons, List.not_mem_nil, false_implies, implies_true, and_true]
        exact ⟨⟨p, hk, by omega, rfl⟩, _, by omega, by omega, rfl⟩
      kept := rfl
      call := rfl
      next := rfl
      inside := by rw [Sighting.stop]; omega }⟩

/-- A call is replaced, and a turn goes on behind its closing parenthesis. -/
theorem exists_turn_of_call {n : Nat}
    (hregions : ∀ r ∈ regions, r.start < r.stop ∧ r.stop ≤ source.length) (hk : k ≤ p)
    (hrest : source.drop p = name ++ '(' :: rest) (hfind : regions.find? (·.has p) = none)
    (hclosing : (if followsDefinition (source.take p).reverse then none
      else closingOffset (.code 0) rest) = some n) :
    ∃ turn, turn? (regions.map (Region.inBytes source)) source (byteOffset source k)
        (byteOffset source p) name = some turn ∧
      turn.IsAt source k p name
        (.call ⟨p, name, rest.take n, p + name.length + 1 + n + 1⟩) := by
  have hlength := congrArg List.length hrest
  rw [List.length_drop, List.length_append, List.length_cons] at hlength
  have hn : closingOffset (.code 0) rest = some n := by
    split at hclosing
    · cases hclosing
    · exact hclosing
  have hlt := closingOffset_lt _ _ _ hn
  obtain ⟨hopening, hdrop⟩ := byteOffset_opening hrest
  obtain ⟨hbefore, hbehind⟩ := slice?_around hrest
  obtain ⟨hclose, hstop⟩ := byteOffset_closing hdrop hn
  have hkept := slice?_byteOffset hk source
  have harguments := slice?_byteOffset (k := p + name.length + 1)
    (p := p + name.length + 1 + n) (by omega) source
  rw [hdrop, Nat.add_sub_cancel_left] at harguments
  unfold turn?
  simp only [find?_inBytes hregions (show p ≤ source.length by omega), hfind, Option.map_none,
    hopening, hbefore, hbehind, hclosing, hclose, hkept, harguments, hstop, Option.bind_eq_bind,
    Option.bind_some]
  exact ⟨_, rfl,
    { cursor := rfl
      name := rfl
      bounds := by
        simp only [List.forall_mem_cons, List.not_mem_nil, false_implies, implies_true, and_true]
        exact ⟨⟨p, hk, by omega, rfl⟩, ⟨_, by omega, by omega, rfl⟩, _, by omega, by omega, rfl⟩
      kept := rfl
      call := rfl
      next := rfl
      inside := by simp only [Sighting.stop]; omega }⟩

/-- Every turn has an outcome. -/
theorem exists_turn (hregions : ∀ r ∈ regions, r.start < r.stop ∧ r.stop ≤ source.length)
    (hk : k ≤ p) (hrest : source.drop p = name ++ '(' :: rest) :
    ∃ turn, turn? (regions.map (Region.inBytes source)) source (byteOffset source k)
        (byteOffset source p) name = some turn ∧
      turn.IsAt source k p name (sight regions (source.take p).reverse p name rest) := by
  have hp : p ≤ source.length := by
    have hlength := congrArg List.length hrest
    rw [List.length_drop, List.length_append, List.length_cons] at hlength
    omega
  unfold sight
  split
  · next literal hfind => exact exists_turn_of_literal hp hregions hk hfind
  · next hfind =>
    split
    · next hclosing => exact exists_turn_of_left hregions hk hrest hfind hclosing
    · next n hclosing => exact exists_turn_of_call hregions hk hrest hfind hclosing

/-- The calls from a position on that a turn may start at. -/
def callsAt (names : List (List Char)) (source : List Char) (k : Nat) : List Call :=
  callsFrom names (literalRegions source) (source.take k).reverse k 0 (k == 0) (source.drop k)

theorem le_start_of_mem_callsAt {c : Call} (hk : k ≤ source.length)
    (h : c ∈ callsAt names source k) : k ≤ c.start := by
  have hposition : k = (source.take k).reverse.length := by
    rw [List.length_reverse, List.length_take_of_le hk]
  have hboundary : (k == 0) = true → ∀ b, (source.take k).reverse.head? = some b →
      isBoundary b = true := by
    intro hzero b hb
    rw [beq_iff_eq.1 hzero] at hb
    cases hb
  exact (standsBetween_callsFrom hposition hboundary c h).1

theorem isEmpty_take (hk : k ≤ source.length) : (source.take k).isEmpty = (k == 0) := by
  rw [Bool.eq_iff_iff, List.isEmpty_iff_length_eq_zero, List.length_take_of_le hk, beq_iff_eq]

/-- The expansion ends where no name is seen. -/
theorem act?_of_seek_eq_none (hk : k ≤ source.length)
    (hseek : seek names (k == 0) (source.drop k) = none) :
    act? names regions source (byteOffset source k) = some (.finish (source.drop k)) ∧
      callsAt names source k = [] := by
  refine ⟨?_, callsFrom_of_seek_eq_none hseek⟩
  rw [act?, cutAt?_byteOffset]
  simp only [Option.bind_eq_bind, Option.bind_some, isEmpty_take hk, hseek]
  rfl

/-- Where a name is seen, the calls are what is made of it and those from where reading goes on. -/
theorem callsAt_of_seek (hseek : seek names (k == 0) (source.drop k) = some (ahead, name))
    (hp : k + ahead.length = p) :
    ∃ rest, name ∈ names ∧ source.drop p = name ++ '(' :: rest ∧
      ∀ stop ≤ source.length,
        (sight (literalRegions source) (source.take p).reverse p name rest).stop p = stop →
        callsAt names source k =
          (sight (literalRegions source) (source.take p).reverse p name rest).call?.toList ++
            callsAt names source stop := by
  obtain ⟨rest, htext, hname, hcalls⟩ := exists_of_seek hseek
  have hrest : source.drop p = name ++ '(' :: rest := by
    rw [← hp, ← List.drop_drop, htext, List.drop_left]
  have hbefore : ahead.reverse ++ (source.take k).reverse = (source.take p).reverse := by
    rw [← hp, List.take_add, htext, List.take_left, List.reverse_append]
  refine ⟨rest, (nameAt?_eq_some hname).1, hrest, fun stop hinside hstop => ?_⟩
  have hlt := lt_stop_sight (literalRegions source) (source.take p).reverse p name rest
  have hsum : p + (stop - p) = stop := by omega
  have hle : stop ≤ p + (name ++ '(' :: rest).length := by
    rw [← hrest, List.length_drop]
    omega
  have hfront : ((source.drop p).take (stop - p)).reverse ++ (source.take p).reverse =
      (source.take stop).reverse := by
    rw [← List.reverse_append, ← List.take_add, hsum]
  have hfree : (stop == 0) = false := beq_false_of_ne (by omega)
  rw [callsAt, callsAt, hcalls, hbefore, hp, callsFrom_of_nameAt? hname hstop hle, ← hrest, hfront,
    List.drop_drop, hsum, hfree]

/-- Where a name is seen a turn is taken, and the calls are its own and those behind it. -/
theorem exists_act?_of_seek (hk : k ≤ source.length)
    (hseek : seek names (k == 0) (source.drop k) = some (ahead, name)) :
    ∃ turn p sighting,
      act? names ((literalRegions source).map (Region.inBytes source)) source
        (byteOffset source k) = some (.go turn) ∧
      turn.IsAt source k p name sighting ∧ name ∈ names ∧ k ≤ p ∧ p < sighting.stop p ∧
      callsAt names source k = sighting.call?.toList ++ callsAt names source (sighting.stop p) := by
  obtain ⟨rest, hname, hrest, hcalls⟩ := callsAt_of_seek hseek rfl
  have hregions : ∀ r ∈ literalRegions source, r.start < r.stop ∧ r.stop ≤ source.length := by
    intro r hr
    have hle := stop_le_of_mem hr
    rw [Nat.zero_add] at hle
    exact ⟨start_lt_stop_of_mem hr, hle⟩
  have hstart : byteOffset source k + byteSize ahead = byteOffset source (k + ahead.length) := by
    obtain ⟨rest, htext, -⟩ := exists_of_seek hseek
    rw [byteOffset_add, htext, List.take_left]
  obtain ⟨turn, hturn, hat⟩ := exists_turn hregions (Nat.le_add_right k ahead.length) hrest
  refine ⟨turn, k + ahead.length, _, ?_, hat, hname, Nat.le_add_right _ _,
    lt_stop_sight _ _ _ _ _, hcalls _ hat.inside rfl⟩
  rw [act?, cutAt?_byteOffset]
  simp only [Option.bind_eq_bind, Option.bind_some, isEmpty_take hk, hseek, hstart, hturn]
  rfl

/-- A turn counts bytes, and there is none from within a character. -/
example : act? ["f".toList] [] "é f(1);".toList 0 =
      some (.go ⟨0, "f".toList, [3, 5, 6], "é ".toList, some ⟨3, "f".toList, "1".toList, 7⟩, 7⟩) ∧
    act? ["f".toList] [] "é f(1);".toList 1 = none := by
  decide +kernel

/-- Nothing that a turn does can fail, and it goes on: its name is registered, the bounds of what it
cuts out lie between the characters of the text, at its cursor or behind it, and the next cursor
lies behind its own. -/
structure Turn.IsSafe (r : Registry) (source : String) (turn : Turn) : Prop where
  registered : r.contains (String.ofList turn.name) = true
  bounds : ∀ b ∈ turn.cursor :: turn.next :: turn.bounds,
    turn.cursor ≤ b ∧ b ≤ source.utf8ByteSize ∧ (String.Pos.Raw.mk b).IsValid source
  advances : turn.cursor < turn.next

theorem Turn.IsAt.isSafe {r : Registry} {source : String} {turn : Turn} {sighting : Sighting}
    (hat : turn.IsAt source.toList k p name sighting) (hname : name ∈ r.namesByLength) (hk : k ≤ p)
    (hlt : p < sighting.stop p) : turn.IsSafe r source := by
  have hbound : ∀ j, k ≤ j → turn.cursor ≤ byteOffset source.toList j ∧
      byteOffset source.toList j ≤ source.utf8ByteSize ∧
      (String.Pos.Raw.mk (byteOffset source.toList j)).IsValid source := by
    intro j hj
    rw [hat.cursor, ← byteSize_toList]
    exact ⟨byteOffset_le hj, byteOffset_le_byteSize _ _, isValid_byteOffset source j⟩
  refine ⟨?_, ?_, ?_⟩
  · rw [hat.name]
    exact Registry.mem_names_iff.1 (Registry.ofList_mem_of_mem_byLength hname)
  · refine List.forall_mem_cons.2 ⟨?_, List.forall_mem_cons.2 ⟨?_, fun b hb => ?_⟩⟩
    · have hcursor := hbound k (Nat.le_refl k)
      rwa [← hat.cursor] at hcursor
    · rw [hat.next]
      exact hbound _ (by omega)
    · obtain ⟨j, hj, -, rfl⟩ := hat.bounds b hb
      exact hbound j hj
  · rw [hat.cursor, hat.next]
    exact byteOffset_lt (by omega) hat.inside

end Turns

namespace Registry

variable {r : Registry} {turn : Turn} {turns : List Turn} {sighting : Sighting} {later : List Call}

/-- What the turns put together; the first call that fails decides. -/
def output (r : Registry) : List Turn → List Char → Except Error (List Char)
  | [], rest => .ok rest
  | turn :: turns, rest => do
    let text ← turn.call.elim (.ok []) r.answer
    let more ← r.output turns rest
    return turn.kept ++ text ++ more

/-- A turn puts out what is kept up to its call, or up to where the next one starts. -/
theorem output_of_isAt (hat : turn.IsAt source k p name sighting) (hk : k ≤ p)
    (hlater : ∀ c ∈ later, sighting.stop p ≤ c.start)
    (hmore : r.output turns rest =
      (r.answers later).map (substituteFrom source (sighting.stop p))) :
    r.output (turn :: turns) rest =
      (r.answers (sighting.call?.toList ++ later)).map (substituteFrom source k) := by
  rw [output, hat.call, hat.kept, hmore]
  cases sighting with
  | pass length =>
      rw [Sighting.call?, Option.toList_none, List.nil_append]
      cases hanswers : r.answers later with
      | error e => rfl
      | ok replacements =>
          have hahead : ∀ e ∈ replacements, p + length ≤ e.1.start := fun e he =>
            hlater e.1 (map_fst_of_answers hanswers ▸ List.mem_map_of_mem he)
          have hcut := substituteFrom_of_le source (Nat.le_add_right_of_le hk) hahead
          refine congrArg Except.ok (Eq.trans ?_ hcut.symm)
          rw [List.append_nil]
          rfl
  | call c =>
      rw [Sighting.call?, Option.toList_some, List.singleton_append, answers]
      have hanswer : r.answer (c.inBytes source) = r.answer c := rfl
      simp only [Option.map_some, Option.elim_some, hanswer]
      cases r.answer c with
      | error e => rfl
      | ok text => cases r.answers later <;> rfl

/-- From every cursor on the turns come to an end. -/
theorem exists_passage (r : Registry) (source : String) (hk : k ≤ source.toList.length) :
    ∃ turns rest,
      Passage r.namesByLength (byteRegions source) source.toList (byteOffset source.toList k) turns
        rest ∧
      (∀ turn ∈ turns, turn.IsSafe r source) ∧
      turns.filterMap (·.call) =
        (callsAt r.namesByLength source.toList k).map (Call.inBytes source.toList) ∧
      r.output turns rest =
        (r.answers (callsAt r.namesByLength source.toList k)).map
          (substituteFrom source.toList k) := by
  induction hleft : source.toList.length - k using Nat.strongRecOn generalizing k with
  | ind n ih =>
      cases hseek : seek r.namesByLength (k == 0) (source.toList.drop k) with
      | none =>
          obtain ⟨hact, hcalls⟩ := act?_of_seek_eq_none hk hseek
          refine ⟨[], source.toList.drop k, .finish hact, fun _ h => (nomatch h), ?_, ?_⟩
          · rw [hcalls]
            rfl
          · rw [hcalls]
            rfl
      | some seen =>
          obtain ⟨ahead, name⟩ := seen
          obtain ⟨turn, p, sighting, hact, hat, hname, hkp, hlt, hcalls⟩ :=
            exists_act?_of_seek hk hseek
          -- the next cursor lies in the text, and less of it is left there
          obtain ⟨turns, rest, hpassage, hsafe, hcall, houtput⟩ :=
            ih _ (by have := hat.inside; omega) hat.inside rfl
          rw [← byteRegions_eq] at hact
          rw [← hat.next] at hpassage
          refine ⟨turn :: turns, rest, .go hact hpassage, ?_, ?_, ?_⟩
          · exact List.forall_mem_cons.2 ⟨hat.isSafe hname hkp hlt, hsafe⟩
          · rw [hcalls, List.map_append, ← hcall, List.filterMap_cons, hat.call]
            cases sighting <;> rfl
          · rw [hcalls]
            exact output_of_isAt hat hkp (fun c hc => le_start_of_mem_callsAt hat.inside hc) houtput

/-- An expansion never fails by itself and always advances. The literals that it reads off the bytes
of the text are those of the text; they are in order and apart, and each begins and ends between
characters. From the start of the text on its turns come to an end, in one way only; none of them
can fail and each puts the cursor further. Their calls are the spans of the text, and what they put
together is the outcome of the expansion. -/
theorem expand_advances (r : Registry) (source : String) :
    byteRegions source = (literalRegions source.toList).map (Region.inBytes source.toList) ∧
      (byteRegions source).Pairwise (fun a b => a.stop ≤ b.start) ∧
      (∀ region ∈ byteRegions source, region.IsSafe source) ∧
      ∃ turns rest,
        Passage r.namesByLength (byteRegions source) source.toList 0 turns rest ∧
        (∀ turns' rest',
          Passage r.namesByLength (byteRegions source) source.toList 0 turns' rest' →
            turns' = turns ∧ rest' = rest) ∧
        (∀ turn ∈ turns, turn.IsSafe r source) ∧
        turns.filterMap (·.call) = (spans r.names source).map (Call.inBytes source.toList) ∧
        r.expand source = (r.output turns rest).map fun text =>
          ⟨String.ofList text, turns.any (·.call.isSome)⟩ := by
  obtain ⟨turns, rest, hpassage, hsafe, hcalls, houtput⟩ :=
    exists_passage r source (Nat.zero_le source.toList.length)
  have hspans : callsAt r.namesByLength source.toList 0 = spans r.names source := rfl
  rw [hspans] at hcalls houtput
  refine ⟨byteRegions_eq source, pairwise_byteRegions source,
    fun region => isSafe_of_mem_byteRegions, turns, rest, hpassage,
    fun turns' rest' => hpassage.unique, hsafe, hcalls, ?_⟩
  have hany : turns.any (·.call.isSome) = !(spans r.names source).isEmpty := by
    have hempty := congrArg List.isEmpty hcalls
    rw [List.isEmpty_map] at hempty
    rw [← hempty, Bool.eq_iff_iff]
    simp [Option.isSome_iff_ne_none]
  rw [expand_eq_map, houtput, hany]
  cases hanswers : r.answers (spans r.names source) with
  | error e => rfl
  | ok replacements =>
      rw [← map_fst_of_answers hanswers, List.isEmpty_map]
      rfl

end Registry

end StyleBuild.Substitution
