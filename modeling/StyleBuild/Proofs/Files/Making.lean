import StyleBuild.Proofs.Files.Directories

/-!
# When a file can be made

Directories can be made all the way down from one that can be opened when no
file stands where one of them has to be (`IsOpen`): then `createDirectories`
succeeds, every location on the way is a directory, and no other location became
one (`createDirectories_below`). A file can be put wherever its directory is
reached and its place is not a directory (`replace_eq_ok_iff`).
-/

namespace StyleBuild

open Text

namespace Text

theorem suffix_joined_concat (sep : Char) (init : List (List Char)) (s : List Char) :
    s <:+ joined sep (init ++ [s]) := by
  induction init with
  | nil => exact List.suffix_refl s
  | cons l init ih =>
      obtain ⟨m, ms, hms⟩ := List.exists_cons_of_ne_nil (List.concat_ne_nil s init)
      rw [List.cons_append, hms, joined, ← hms]
      exact ih.trans ((List.suffix_cons sep _).trans (List.suffix_append l _))

end Text

namespace Path

/-- The path only says where a path starts. -/
def IsStart (p : Path) : Prop := p.chars = [] ∨ p.chars = ['/'] ∨ p.chars = ['.']

theorem IsStart.steps_eq_nil {p : Path} (h : p.IsStart) : p.steps = [] := by
  rcases h with h | h | h <;> rw [steps, h] <;> rfl

theorem steps_ne_nil_of_isNamed {p : Path} (hp : p.IsNamed) : p.steps ≠ [] := by
  rw [steps_eq_of_isNamed hp]
  exact List.concat_ne_nil _ _

theorem steps_dropLast_of_isNamed {p : Path} (hp : p.IsNamed) :
    p.steps.dropLast = p.stepsAbove := by
  rw [steps_eq_of_isNamed hp, List.dropLast_concat]

theorem exists_parent?_of_steps_ne_nil {p : Path} (hp : p.steps ≠ []) :
    ∃ q, p.parent? = some q := by
  have hsteps := filter_leadAndSegments p.chars
  rw [← filter_trimSilent] at hsteps
  unfold parent?
  simp only
  split
  · next hnil =>
    rw [hnil] at hsteps
    exact absurd hsteps.symm hp
  · exact ⟨_, rfl⟩

theorem exists_parent?_of_isNamed {p : Path} (hp : p.IsNamed) : ∃ q, p.parent? = some q :=
  exists_parent?_of_steps_ne_nil (steps_ne_nil_of_isNamed hp)

/-- A parent that ends in a step down is named. -/
theorem isNamed_of_parent? {p q : Path} (h : p.parent? = some q) {init : List (List Char)}
    {s : List Char} (hsteps : q.steps = init ++ [s]) (hup : s ≠ ['.', '.']) : q.IsNamed := by
  rcases eq_of_parent? h with ⟨-, -, rfl⟩ | ⟨init', t, hinit, rfl⟩
  · exact absurd hsteps.symm (List.concat_ne_nil _ _)
  · have hbegins : trimSilent init' <+: (leadAndSegments p.chars).2 :=
      (trimSilent_isPrefix init').trans
        (((List.prefix_append init' [t]).trans (hinit ▸ List.prefix_refl _)).trans
          (trimSilent_isPrefix _))
    rw [steps_lead_joined hbegins] at hsteps
    rcases List.eq_nil_or_concat' (trimSilent init') with hnil | ⟨front, last, hlast⟩
    · rw [hnil] at hsteps
      exact absurd hsteps.symm (List.concat_ne_nil _ _)
    · have hloud : isSilent last = false := isSilent_of_trimSilent_eq hlast
      rw [hlast, List.filter_append, List.filter_cons_of_pos (by simp [hloud])] at hsteps
      obtain rfl := List.singleton_inj.1 (List.append_inj' hsteps rfl).2
      refine isNamed_of_suffix (t := last) ?_ ?_ fun hdots => ?_
      · rw [chars_ofChars, hlast]
        exact (suffix_joined_concat '/' front last).trans (List.suffix_append _ _)
      · exact notMem_of_mem_leadAndSegments (hbegins.subset (hlast ▸ by simp))
      · rcases List.suffix_cons_iff.1 hdots with rfl | hdot
        · exact hup rfl
        · rcases List.suffix_cons_iff.1 hdot with rfl | hnil
          · cases hloud
          · rw [List.suffix_nil.1 hnil] at hloud
            cases hloud

/-- A parent without steps is where the path starts. -/
theorem isStart_of_parent? {p q : Path} (h : p.parent? = some q) (hsteps : q.steps = []) :
    q.IsStart := by
  rcases eq_of_parent? h with ⟨-, -, rfl⟩ | ⟨init, t, hinit, rfl⟩
  · exact Or.inl rfl
  · rcases List.eq_nil_or_concat' (trimSilent init) with hnil | ⟨front, last, hlast⟩
    · rw [hnil, IsStart, chars_ofChars, joined, List.append_nil]
      rcases leadAndSegments_cases p.chars with ⟨h, -⟩ | h | ⟨h, -⟩ <;> simp [h]
    · have hbegins : trimSilent init <+: (leadAndSegments p.chars).2 :=
        (trimSilent_isPrefix init).trans
          (((List.prefix_append init [t]).trans (hinit ▸ List.prefix_refl _)).trans
            (trimSilent_isPrefix _))
      rw [steps_lead_joined hbegins, hlast, List.filter_append,
        List.filter_cons_of_pos (by simp [isSilent_of_trimSilent_eq hlast])] at hsteps
      exact absurd hsteps (List.concat_ne_nil _ _)

/-- The parent of a path that is down is named too, unless it is where the path starts. -/
theorem IsDown.isNamed_or_isStart_parent? {p q : Path} (hp : p.IsDown) (h : p.parent? = some q) :
    q.IsNamed ∨ q.IsStart := by
  rcases List.eq_nil_or_concat' q.steps with hnil | ⟨init, s, hsteps⟩
  · exact Or.inr (isStart_of_parent? h hnil)
  · refine Or.inl (isNamed_of_parent? h hsteps fun hup => ?_)
    exact (isDown_iff q).1 (hp.parent? h) (by rw [hsteps, hup]; simp)

/-- Segments that each lead one step down. -/
def AreNames (segs : List (List Char)) : Prop := ∀ s ∈ segs, isSilent s = false ∧ s ≠ ['.', '.']

theorem IsDown.areNames_steps {p : Path} (hp : p.IsDown) : AreNames p.steps := fun _ hs =>
  ⟨not_isSilent_of_mem_steps hs, fun hup => (isDown_iff p).1 hp (hup ▸ hs)⟩

theorem length_steps_le (p : Path) : p.steps.length ≤ p.components.length := by
  rw [components_eq, List.length_append, List.length_map]
  exact Nat.le_add_left _ _

end Path

namespace Files

open StyleBuild.Path

variable {f g : Files} {now : Int} {p q : Path} {here : Location} {steps : List (List Char)}

/-- Follows segments to a directory. -/
def opened (f : Files) (here : Location) (segs : List (List Char)) : Except Fault Location :=
  match f.walk here segs with
  | .error e => .error e
  | .ok l =>
    match f.nodeAt? l with
    | none => .error .notFound
    | some (.file _) => .error .notADirectory
    | some (.directory ..) => .ok l

theorem opened_of_none (h : f.nodeAt? here = none) (segs : List (List Char)) :
    f.opened here segs = .error .notFound := by
  cases segs <;> simp [opened, walk, h]

theorem opened_of_file {x : StoredFile} (h : f.nodeAt? here = some (.file x))
    (segs : List (List Char)) : f.opened here segs = .error .notADirectory := by
  cases segs <;> simp [opened, walk, h]

theorem opened_nil (h : f.IsDirectoryAt here) : f.opened here [] = .ok here := by
  obtain ⟨mode, modified, h⟩ := h
  simp [opened, walk, h]

theorem opened_cons (h : f.IsDirectoryAt here) (s : List Char) (rest : List (List Char)) :
    f.opened here (s :: rest) =
      if isSilent s then f.opened here rest
      else if s = ['.', '.'] then f.opened here.dropLast rest
      else f.opened (here ++ [s]) rest := by
  unfold opened
  rw [walk_cons_of_isDirectoryAt h]
  by_cases hs : isSilent s = true
  · simp only [if_pos hs]
  · by_cases hup : s = ['.', '.']
    · simp only [if_neg hs, if_pos hup]
    · simp only [if_neg hs, if_neg hup]

theorem opened_eq_ok_iff {segs : List (List Char)} {l : Location} :
    f.opened here segs = .ok l ↔ f.walk here segs = .ok l ∧ f.IsDirectoryAt l := by
  unfold opened
  cases f.walk here segs with
  | error e => simp
  | ok l' =>
      simp only [Except.ok.injEq]
      constructor
      · intro h
        split at h
        · cases h
        · cases h
        · next mode modified hd =>
          cases h
          exact ⟨rfl, mode, modified, hd⟩
      · rintro ⟨rfl, mode, modified, hd⟩
        simp only [hd]

theorem opened_append {a b : List (List Char)} {l : Location} (h : f.opened here a = .ok l) :
    f.opened here (a ++ b) = f.opened l b := by
  rw [opened, walk_append, (opened_eq_ok_iff.1 h).1]
  rfl

/-- Segments that take no step do not matter to where a directory is. -/
theorem opened_filter (f : Files) (here : Location) (segs : List (List Char)) :
    f.opened here (segs.filter fun s => !isSilent s) = f.opened here segs := by
  induction segs generalizing here with
  | nil => rfl
  | cons s segs ih =>
      cases hnode : f.nodeAt? here with
      | none => rw [opened_of_none hnode, opened_of_none hnode]
      | some node =>
          cases node with
          | file x => rw [opened_of_file hnode, opened_of_file hnode]
          | directory mode modified =>
              have hd : f.IsDirectoryAt here := ⟨mode, modified, hnode⟩
              rw [opened_cons hd]
              cases hs : isSilent s with
              | true => rw [List.filter_cons_of_neg (by simp [hs]), if_pos rfl, ih]
              | false =>
                  rw [List.filter_cons_of_pos (by simp [hs]), opened_cons hd, hs]
                  simp only [ih]

theorem isDirectory_eq_true_iff (hp : p.isEmpty = false) :
    f.isDirectory p = true ↔
      ∃ l, f.walk (p.origin f.home) p.steps = .ok l ∧ f.IsDirectoryAt l := by
  have horigin : f.origin p = p.origin f.home := rfl
  simp only [← opened_eq_ok_iff, Path.steps, opened_filter]
  unfold Files.isDirectory Files.find opened
  rw [hp, horigin]
  cases f.walk (p.origin f.home) (segments '/' p.chars) with
  | error e => simp
  | ok l =>
      cases hnode : f.nodeAt? l with
      | none => simp [hnode]
      | some node => cases node <;> simp [hnode]

theorem reaches_iff_opened (f : Files) (p : Path) :
    f.Reaches p ↔ ∃ l, f.opened (p.origin f.home) p.stepsAbove = .ok l := by
  simp only [stepsAbove, opened_filter, opened_eq_ok_iff]
  constructor
  · exact fun h => ⟨_, h⟩
  · rintro ⟨l, hwalk, hd⟩
    exact reaches_of_walk hwalk hd

theorem isDirectory_directoryOf_iff (hp : p.steps ≠ []) :
    f.isDirectory (directoryOf p) = true ↔
      ∃ l, f.opened (p.origin f.home) p.steps.dropLast = .ok l := by
  obtain ⟨parent, hparent⟩ := exists_parent?_of_steps_ne_nil hp
  simp only [opened_eq_ok_iff]
  rw [directoryOf, directory_eq_of_parent? hparent, ← origin_parent? hparent,
    ← (steps_parent? hparent).1]
  split
  · next hempty =>
    -- a path without a text starts where `.` does
    have hchars : parent.chars = [] := List.isEmpty_iff.1 hempty
    have hsteps : parent.steps = [] := by
      rw [Path.steps, hchars]
      rfl
    have horigin : parent.origin f.home = f.home := by
      rw [Path.origin, Path.isAbsolute_eq, hchars]
      rfl
    rw [isDirectory_eq_true_iff (by rfl), hsteps, horigin]
    rfl
  · next hempty => rw [isDirectory_eq_true_iff (by simpa using hempty)]

/-- A path is reached when its directory is one. -/
theorem reaches_iff_isDirectory (hp : p.IsNamed) :
    f.Reaches p ↔ f.isDirectory (directoryOf p) = true := by
  rw [isDirectory_directoryOf_iff (steps_ne_nil_of_isNamed hp), reaches_iff_opened,
    steps_dropLast_of_isNamed hp]

/-- A directory that was made is found. -/
theorem isDirectory_of_makeDirectory (h : f.makeDirectory now p = .ok g) :
    g.isDirectory p = true := by
  have hsame := sameOutside_makeDirectory h
  have hnonempty : p.isEmpty = false := by
    cases hempty : p.isEmpty with
    | false => rfl
    | true => simp [makeDirectory, target, hempty] at h
  unfold makeDirectory at h
  split at h
  · cases h
  · cases h
  · next e he =>
    obtain ⟨init, hsteps, hwalk, hd, hloud, hup⟩ := exists_of_target he
    split at h
    · cases h
    · cases h
      have hmade : (f.addEntry now e.directory e.name
          (.directory newDirectoryMode now)).IsDirectoryAt (e.directory ++ [e.name]) := by
        rw [addEntry, isDirectoryAt_touchDirectory_iff]
        exact ⟨_, _, by rw [nodeAt?_put, if_pos rfl]⟩
      have habove := opened_eq_ok_iff.2 ⟨hsame.walk hwalk, hsame.directories _ hd⟩
      refine (isDirectory_eq_true_iff hnonempty).2 ⟨_, (opened_eq_ok_iff.1 ?_).1, hmade⟩
      rw [hsame.home, hsteps, opened_append ((opened_filter _ _ _).trans habove),
        opened_cons (hsame.directories _ hd), hloud, if_neg (by simp), if_neg hup, opened_nil hmade]

/-- When the directories were made, the last one is found. -/
theorem isDirectory_of_createDirectories (hp : p.isEmpty = false)
    (h : f.createDirectories now p = (g, .ok ())) : g.isDirectory p = true := by
  rw [createDirectories, createDirectoriesUpTo, hp, if_neg (by simp)] at h
  split at h
  · next g' hg =>
    cases h
    exact isDirectory_of_makeDirectory hg
  · split at h
    · cases h
    · split at h
      · cases h
      · split at h
        · next g' hg =>
          cases h
          exact isDirectory_of_makeDirectory hg
        · next e _ =>
          simp only [Prod.mk.injEq] at h
          obtain ⟨rfl, h⟩ := h
          split at h
          · assumption
          · cases h
  · simp only [Prod.mk.injEq] at h
    obtain ⟨rfl, h⟩ := h
    split at h
    · assumption
    · cases h

/-- Every location on the way down from `here` is a directory. -/
def HasWay (f : Files) (here : Location) (steps : List (List Char)) : Prop :=
  ∀ a, a <+: steps → f.IsDirectoryAt (here ++ a)

/-- No file is on the way down from `here`. -/
def IsOpen (f : Files) (here : Location) (steps : List (List Char)) : Prop :=
  ∀ a, a <+: steps → ∀ x, f.nodeAt? (here ++ a) ≠ some (.file x)

theorem IsOpen.mono {steps' : List (List Char)} (h : f.IsOpen here steps) (hle : steps' <+: steps) :
    f.IsOpen here steps' :=
  fun a ha => h a (ha.trans hle)

theorem SameOutside.opened {s : Set Location} (hfg : SameOutside s f g) {segs : List (List Char)}
    {l : Location} (h : f.opened here segs = .ok l) : g.opened here segs = .ok l := by
  rw [opened_eq_ok_iff] at h ⊢
  exact ⟨hfg.walk h.1, hfg.directories _ h.2⟩

theorem SameOutside.isOpen (hfg : SameOutside ∅ f g) (h : f.IsOpen here steps) :
    g.IsOpen here steps :=
  fun a ha x hx => h a ha x ((hfg.files _ (Set.notMem_empty _) x).1 hx)

theorem SameOutside.hasWay {s : Set Location} (hfg : SameOutside s f g)
    (h : f.HasWay here steps) : g.HasWay here steps :=
  fun a ha => hfg.directories _ (h a ha)

namespace IsTree

theorem isDirectoryAt_origin (h : f.IsTree) (hhome : f.IsDirectoryAt f.home) (p : Path) :
    f.IsDirectoryAt (p.origin f.home) := by
  unfold Path.origin
  split
  · rcases eq_or_ne f.home [] with hnil | hne
    · exact hnil ▸ hhome
    · obtain ⟨mode, modified, hnode⟩ := hhome
      exact h.isDirectoryAt (b := f.home) hnode hne
  · exact hhome

end IsTree

theorem hasWay_nil_iff : f.HasWay here [] ↔ f.IsDirectoryAt here := by
  simp [HasWay]

theorem hasWay_cons_iff {s : List Char} :
    f.HasWay here (s :: steps) ↔ f.IsDirectoryAt here ∧ f.HasWay (here ++ [s]) steps := by
  constructor
  · intro h
    refine ⟨by simpa using h [] List.nil_prefix, fun a ha => ?_⟩
    rw [List.append_assoc]
    exact h (s :: a) ((List.prefix_cons_inj s).2 ha)
  · rintro ⟨hhere, hway⟩ a ha
    rcases List.prefix_cons_iff.1 ha with rfl | ⟨b, rfl, hb⟩
    · rwa [List.append_nil]
    · rw [List.append_cons]
      exact hway b hb

theorem hasWay_concat_iff {s : List Char} :
    f.HasWay here (steps ++ [s]) ↔
      f.HasWay here steps ∧ f.IsDirectoryAt (here ++ (steps ++ [s])) := by
  constructor
  · exact fun h => ⟨fun a ha => h a (ha.trans (List.prefix_append _ _)), h _ (List.prefix_refl _)⟩
  · rintro ⟨hway, hd⟩ a ha
    rcases List.prefix_concat_iff.1 ha with rfl | ha
    · exact hd
    · exact hway a ha

theorem HasWay.opened (hnames : AreNames steps) (h : f.HasWay here steps) :
    f.opened here steps = .ok (here ++ steps) := by
  induction steps generalizing here with
  | nil => rw [opened_nil (hasWay_nil_iff.1 h), List.append_nil]
  | cons s steps ih =>
      obtain ⟨hhere, hway⟩ := hasWay_cons_iff.1 h
      obtain ⟨hloud, hup⟩ := hnames s List.mem_cons_self
      rw [opened_cons hhere, hloud, if_neg (by simp), if_neg hup,
        ih (fun t ht => hnames t (List.mem_cons_of_mem _ ht)) hway, List.append_assoc,
        List.singleton_append]

/-- What is opened down from a directory is reached through directories. -/
theorem hasWay_of_opened (hnames : AreNames steps) {l : Location}
    (h : f.opened here steps = .ok l) : f.HasWay here steps := by
  induction steps generalizing here with
  | nil =>
      obtain ⟨hwalk, hl⟩ := opened_eq_ok_iff.1 h
      cases hwalk
      exact hasWay_nil_iff.2 hl
  | cons s steps ih =>
      obtain ⟨hloud, hup⟩ := hnames s List.mem_cons_self
      have hhere := isDirectoryAt_of_walk_cons (opened_eq_ok_iff.1 h).1
      rw [opened_cons hhere, hloud, if_neg (by simp), if_neg hup] at h
      exact hasWay_cons_iff.2 ⟨hhere, ih (fun t ht => hnames t (List.mem_cons_of_mem _ ht)) h⟩

/-- With no file on the way down, only the want of a directory keeps one from being opened. -/
theorem IsOpen.hasWay_or_notFound (hnames : AreNames steps) (hopen : f.IsOpen here steps) :
    f.HasWay here steps ∨ f.opened here steps = .error .notFound := by
  have hfile := fun x => hopen [] List.nil_prefix x
  rw [List.append_nil] at hfile
  induction steps generalizing here with
  | nil =>
      cases hnode : f.nodeAt? here with
      | none => exact Or.inr (opened_of_none hnode _)
      | some node =>
          cases node with
          | file x => exact absurd hnode (hfile x)
          | directory mode modified => exact Or.inl (hasWay_nil_iff.2 ⟨mode, modified, hnode⟩)
  | cons s steps ih =>
      cases hnode : f.nodeAt? here with
      | none => exact Or.inr (opened_of_none hnode _)
      | some node =>
          cases node with
          | file x => exact absurd hnode (hfile x)
          | directory mode modified =>
              have hd : f.IsDirectoryAt here := ⟨mode, modified, hnode⟩
              obtain ⟨hloud, hup⟩ := hnames s List.mem_cons_self
              have hbelow : f.IsOpen (here ++ [s]) steps := fun a ha => by
                rw [List.append_assoc]
                exact hopen (s :: a) ((List.prefix_cons_inj s).2 ha)
              rw [hasWay_cons_iff, opened_cons hd, hloud, if_neg (by simp), if_neg hup]
              refine (ih (fun t ht => hnames t (List.mem_cons_of_mem _ ht)) hbelow ?_).imp_left
                fun hway => ⟨hd, hway⟩
              intro x
              rw [← List.append_nil (here ++ [s])]
              exact hbelow [] List.nil_prefix x

/-- The target of a named path is an entry of the directory that the steps above it open. -/
theorem target_eq_opened (hp : p.IsNamed) :
    f.target p = (f.opened (p.origin f.home) p.stepsAbove).map fun directory =>
      .entry ⟨directory, p.lastSegment, false⟩ := by
  rw [target_of_isNamed hp, stepsAbove, opened_filter, opened]
  cases f.walk (p.origin f.home) p.above with
  | error e => rfl
  | ok l =>
      cases hnode : f.nodeAt? l with
      | none => simp only [hnode, Except.map]
      | some node => cases node <;> simp only [hnode, Except.map]

/-- What opens a path opens a directory on the way there too. -/
theorem exists_of_opened_append {a b : List (List Char)} {l : Location}
    (h : f.opened here (a ++ b) = .ok l) :
    ∃ d, f.opened here a = .ok d ∧ f.opened d b = .ok l := by
  obtain ⟨hwalk, hl⟩ := opened_eq_ok_iff.1 h
  rw [walk_append] at hwalk
  split at hwalk
  · cases hwalk
  · next d hd =>
    have hdirectory : f.IsDirectoryAt d := by
      cases b with
      | nil =>
          cases hwalk
          exact hl
      | cons s b => exact isDirectoryAt_of_walk_cons hwalk
    exact ⟨d, opened_eq_ok_iff.2 ⟨hd, hdirectory⟩, opened_eq_ok_iff.2 ⟨hwalk, hl⟩⟩

theorem target_of_opened (hp : p.isEmpty = false) {l : Location}
    (h : f.opened (p.origin f.home) p.steps = .ok l) : ∃ t, f.target p = .ok t := by
  have horigin : f.origin p = p.origin f.home := rfl
  have hempty : ∀ s, List.isEmpty s = true → isSilent s = true := fun s hs => by
    rw [isSilent, hs, Bool.true_or]
  rw [Path.steps, ← filter_rdropWhile hempty, opened_filter] at h
  simp only [target, hp, horigin, Bool.false_eq_true, if_false]
  split
  · exact ⟨_, rfl⟩
  · next last hlast =>
    obtain ⟨init, hinit⟩ := List.getLast?_eq_some_iff.1 hlast
    have hbare : (segments '/' p.chars).rdropWhile List.isEmpty = init ++ [last] := hinit
    rw [hbare] at h
    obtain ⟨d, hd, -⟩ := exists_of_opened_append h
    obtain ⟨hwalk, mode, modified, hnode⟩ := opened_eq_ok_iff.1 hd
    rw [hinit, List.dropLast_concat]
    simp only [hwalk, hnode]
    split
    · exact ⟨_, rfl⟩
    · exact ⟨_, rfl⟩

/-- A directory that can be opened is not made again. -/
theorem makeDirectory_of_opened (now : Int) (hp : p.isEmpty = false) {l : Location}
    (h : f.opened (p.origin f.home) p.steps = .ok l) :
    f.makeDirectory now p = .error .alreadyExists := by
  obtain ⟨t, ht⟩ := target_of_opened hp h
  rw [makeDirectory, ht]
  cases t with
  | place => rfl
  | entry e =>
      obtain ⟨init, hsteps, hwalk, hdirectory, hloud, hup⟩ := exists_of_target ht
      have habove := (opened_filter _ _ _).trans (opened_eq_ok_iff.2 ⟨hwalk, hdirectory⟩)
      rw [hsteps, opened_append habove, opened_cons hdirectory, hloud, if_neg (by simp),
        if_neg hup] at h
      obtain ⟨hhere, mode, modified, hnode⟩ := opened_eq_ok_iff.1 h
      cases hhere
      simp only [hnode]

/-- Where a path can be opened, or starts, there is nothing to make. -/
theorem createDirectoriesUpTo_of_opened (now : Int) (fuel : Nat) {l : Location}
    (h : f.opened (p.origin f.home) p.steps = .ok l) :
    f.createDirectoriesUpTo now fuel p = (f, .ok ()) := by
  cases fuel with
  | zero => rfl
  | succ fuel =>
      rw [createDirectoriesUpTo]
      cases hp : p.isEmpty with
      | true => rfl
      | false =>
          have hdirectory := (isDirectory_eq_true_iff hp).2 ⟨l, opened_eq_ok_iff.1 h⟩
          simp [makeDirectory_of_opened now hp h, hdirectory]

variable {base names : List (List Char)}

theorem place_of_opened (hsteps : p.steps = base ++ names)
    (hbase : f.opened (p.origin f.home) base = .ok here) (hnames : AreNames names) :
    p.place f.home = here ++ names := by
  rw [place_eq_lead_steps, hsteps, lead_append, ← walk_eq_lead (opened_eq_ok_iff.1 hbase).1,
    lead_names here hnames]

theorem isDirectory_of_hasWay (hp : p.isEmpty = false) (hsteps : p.steps = base ++ names)
    (hbase : f.opened (p.origin f.home) base = .ok here) (hnames : AreNames names)
    (hway : f.HasWay here names) : f.isDirectory p = true := by
  have hopened := (opened_append hbase).trans (hway.opened hnames)
  rw [← hsteps] at hopened
  exact (isDirectory_eq_true_iff hp).2 ⟨_, opened_eq_ok_iff.1 hopened⟩

/-- Where there is a way to the step above, one more directory is made, or it is there. -/
theorem makeDirectory_below (now : Int) {s : List Char} (hp : p.IsNamed)
    (hsteps : p.steps = base ++ (names ++ [s]))
    (hbase : f.opened (p.origin f.home) base = .ok here) (hnames : AreNames (names ++ [s]))
    (hway : f.HasWay here names) (hopen : f.IsOpen here (names ++ [s])) :
    ∃ g, (f.makeDirectory now p = .ok g ∨
        f.makeDirectory now p = .error .alreadyExists ∧ g = f ∧ f.isDirectory p = true) ∧
      g.HasWay here (names ++ [s]) ∧ NewDirectoriesIn {here ++ (names ++ [s])} f g := by
  have hempty := isEmpty_eq_false_of_isNamed hp
  cases hnode : f.nodeAt? (here ++ (names ++ [s])) with
  | some node =>
      cases node with
      | file x => exact absurd hnode (hopen _ (List.prefix_refl _) x)
      | directory mode modified =>
          have hall : f.HasWay here (names ++ [s]) :=
            hasWay_concat_iff.2 ⟨hway, mode, modified, hnode⟩
          have hopened := (opened_append hbase).trans (hall.opened hnames)
          rw [← hsteps] at hopened
          exact ⟨f, Or.inr ⟨makeDirectory_of_opened now hempty hopened, rfl,
            isDirectory_of_hasWay hempty hsteps hbase hnames hall⟩, hall,
            NewDirectoriesIn.refl _ f⟩
  | none =>
      have habove : p.stepsAbove = base ++ names ∧ p.lastSegment = s := by
        rw [steps_eq_of_isNamed hp, ← List.append_assoc] at hsteps
        exact (List.append_inj' hsteps rfl).imp_right List.singleton_inj.1
      have htarget : f.target p = .ok (.entry ⟨here ++ names, s, false⟩) := by
        rw [target_eq_opened hp, habove.1, habove.2, opened_append hbase,
          hway.opened fun t ht => hnames t (List.mem_append_left _ ht)]
        rfl
      have hmake : f.makeDirectory now p = .ok (f.addEntry now (here ++ names) s
          (.directory newDirectoryMode now)) := by
        rw [makeDirectory, htarget]
        simp only [List.append_assoc, hnode]
      refine ⟨_, Or.inl hmake, hasWay_concat_iff.2 ⟨(sameOutside_makeDirectory hmake).hasWay hway,
        ?_⟩, ?_⟩
      · rw [addEntry, isDirectoryAt_touchDirectory_iff, List.append_assoc]
        exact ⟨_, _, by rw [nodeAt?_put, if_pos rfl]⟩
      · rw [← place_of_opened hsteps hbase hnames]
        exact newDirectoriesIn_makeDirectory hmake

/-- With no file on the way, the directories down from one that can be opened are made, and no
others. -/
theorem createDirectoriesUpTo_below (now : Int) {fuel : Nat} (hp : names ≠ [] → p.IsNamed)
    (hsteps : p.steps = base ++ names) (hbase : f.opened (p.origin f.home) base = .ok here)
    (hnames : AreNames names) (hopen : f.IsOpen here names) (hfuel : names.length < fuel) :
    ∃ g, f.createDirectoriesUpTo now fuel p = (g, .ok ()) ∧ g.HasWay here names ∧
      NewDirectoriesIn {l | ∃ a, a <+: names ∧ l = here ++ a} f g := by
  induction fuel generalizing p names with
  | zero => exact absurd hfuel (Nat.not_lt_zero _)
  | succ fuel ih =>
      rcases List.eq_nil_or_concat' names with rfl | ⟨names, s, rfl⟩
      · rw [List.append_nil] at hsteps
        exact ⟨f, createDirectoriesUpTo_of_opened now _ (hsteps ▸ hbase),
          hasWay_nil_iff.2 (opened_eq_ok_iff.1 hbase).2, NewDirectoriesIn.refl _ f⟩
      · have hp := hp (by simp)
        have habove : AreNames names := fun t ht => hnames t (List.mem_append_left _ ht)
        have hlast : ∀ g k, NewDirectoriesIn {here ++ (names ++ [s])} g k →
            NewDirectoriesIn {l | ∃ a, a <+: names ++ [s] ∧ l = here ++ a} g k := fun g k h =>
          h.mono (Set.singleton_subset_iff.2 ⟨_, List.prefix_refl _, rfl⟩)
        rw [createDirectoriesUpTo, isEmpty_eq_false_of_isNamed hp, if_neg (by simp)]
        rcases (hopen.mono (List.prefix_append _ _)).hasWay_or_notFound habove with hway | hmissing
        · obtain ⟨g, hmake | ⟨hmake, rfl, hdirectory⟩, hall, hnew⟩ :=
            makeDirectory_below now hp hsteps hbase hnames hway hopen
          · exact ⟨g, by rw [hmake], hall, hlast f g hnew⟩
          · exact ⟨g, by simp [hmake, hdirectory], hall, hlast g g hnew⟩
        · obtain ⟨parent, hparent⟩ := exists_parent?_of_isNamed hp
          have hstepsParent : parent.steps = base ++ names := by
            rw [(steps_parent? hparent).1, hsteps, ← List.append_assoc, List.dropLast_concat]
          have hnotFound : f.makeDirectory now p = .error .notFound := by
            rw [makeDirectory, target_eq_opened hp, ← steps_dropLast_of_isNamed hp,
              ← (steps_parent? hparent).1, hstepsParent, opened_append hbase, hmissing]
            rfl
          have horigin := origin_parent? hparent f.home
          have hnamed : names ≠ [] → parent.IsNamed := fun hne => by
            obtain ⟨init, t, rfl⟩ := (List.eq_nil_or_concat' names).resolve_left hne
            rw [← List.append_assoc] at hstepsParent
            exact isNamed_of_parent? hparent hstepsParent (habove t (by simp)).2
          obtain ⟨g, hg, hway, hnew⟩ := ih hnamed hstepsParent (horigin ▸ hbase) habove
            (hopen.mono (List.prefix_append _ _)) (by simpa using hfuel)
          have hsame := sameOutside_createDirectoriesUpTo f now fuel parent
          rw [hg] at hsame
          have hbelow : NewDirectoriesIn {l | ∃ a, a <+: names ++ [s] ∧ l = here ++ a} f g := by
            refine hnew.mono ?_
            rintro l ⟨a, ha, rfl⟩
            exact ⟨a, ha.trans (List.prefix_append _ _), rfl⟩
          have hbase' := hsame.opened hbase
          rw [← hsame.home] at hbase'
          simp only [hnotFound, hparent, hg]
          obtain ⟨k, hmake | ⟨hmake, rfl, hdirectory⟩, hall, hnew'⟩ :=
            makeDirectory_below now hp hsteps hbase' hnames hway (hsame.isOpen hopen)
          · exact ⟨k, by rw [hmake], hall, hbelow.trans (hlast g k hnew')⟩
          · exact ⟨k, by simp [hmake, hdirectory], hall, hbelow⟩

theorem createDirectories_below (now : Int) (hp : names ≠ [] → p.IsNamed)
    (hsteps : p.steps = base ++ names) (hbase : f.opened (p.origin f.home) base = .ok here)
    (hnames : AreNames names) (hopen : f.IsOpen here names) :
    ∃ g, f.createDirectories now p = (g, .ok ()) ∧ g.HasWay here names ∧
      NewDirectoriesIn {l | ∃ a, a <+: names ∧ l = here ++ a} f g := by
  refine createDirectoriesUpTo_below now hp hsteps hbase hnames hopen ?_
  have hle := length_steps_le p
  rw [hsteps, List.length_append] at hle
  omega

/-- With no file on the way, the directories down a path are made. -/
theorem createDirectories_ok (now : Int) (htree : f.IsTree) (hhome : f.IsDirectoryAt f.home)
    (hdown : p.IsDown) (hp : p.IsNamed ∨ p.IsStart) (hopen : f.IsOpen (p.origin f.home) p.steps) :
    ∃ g, f.createDirectories now p = (g, .ok ()) ∧ g.HasWay (p.origin f.home) p.steps := by
  have hnamed : p.steps ≠ [] → p.IsNamed := fun hne =>
    hp.resolve_right fun hstart => hne hstart.steps_eq_nil
  obtain ⟨g, hg, hway, -⟩ := createDirectories_below now hnamed (List.nil_append _).symm
    (opened_nil (htree.isDirectoryAt_origin hhome p)) hdown.areNames_steps hopen
  exact ⟨g, hg, hway⟩

theorem isDirectory_iff_openDirectory (f : Files) (p : Path) :
    f.isDirectory p = true ↔ ∃ l, f.openDirectory p = .ok l := by
  unfold Files.isDirectory openDirectory
  cases f.find p with
  | error e => simp
  | ok found =>
      obtain ⟨l, node⟩ := found
      cases node <;> simp

/-- A file is replaced exactly when its directory is reached and its place is no directory. -/
theorem replace_eq_ok_iff (f : Files) (now : Int) (content : ByteArray) (hp : p.IsNamed) :
    (f.replace now p content).2 = .ok () ↔ f.Reaches p ∧ ¬ f.IsDirectoryAt (p.place f.home) := by
  rw [reaches_iff_isDirectory hp, isDirectory_iff_openDirectory, replace_eq]
  cases hdir : f.openDirectory (directoryOf p) with
  | error e => simp
  | ok directory =>
      have hreach : f.Reaches p :=
        (reaches_iff_isDirectory hp).2 ((isDirectory_iff_openDirectory f _).2 ⟨_, hdir⟩)
      have hadd := sameOutside_addFile now content (f.modeFor p)
        (not_isDirectoryAt_of_none (nodeAt?_freshName f directory))
      have hfile := nodeAt?_addFile f now directory f.freshName content (f.modeFor p)
      simp only [Except.ok.injEq, exists_eq', true_and]
      constructor
      · intro h hd
        split at h
        · next g hmove =>
          obtain ⟨-, -, hnot⟩ := moveOver_ok hp hfile hmove
          rw [hadd.home] at hnot
          exact hnot ((sameOutside_withdraw f now directory content _).directories _ hd)
        · cases h
      · intro hplace
        have htarget := (target_eq_ok_iff hp _).2 ⟨hadd.reaches hreach, rfl⟩
        simp only [moveOver, hfile, htarget, hadd.home, Bool.false_eq_true, if_false]
        rw [← place_eq_of_isNamed f.home hp]
        cases hnode : (f.addFile now directory f.freshName content (f.modeFor p)).nodeAt?
            (p.place f.home) with
        | none => rfl
        | some node =>
            cases node with
            | file x => rfl
            | directory mode modified =>
                -- the prepared file is the only new node
                have hnew := newDirectoriesIn_addFile f now directory f.freshName content
                  (f.modeFor p) _ ⟨mode, modified, hnode⟩
                exact absurd (hnew.resolve_right (Set.notMem_empty _)) hplace

/-- Nothing is in the way of a file at a path: no file where a directory has to be, and no
directory in its place. -/
structure Admits (f : Files) (p : Path) : Prop where
  way : ∀ l, l <+: p.directoryPlace f.home → ∀ x, f.nodeAt? l ≠ some (.file x)
  place : ¬ f.IsDirectoryAt (p.place f.home)

theorem Admits.isOpen (h : f.Admits p) (hdown : p.IsDown) :
    f.IsOpen (p.origin f.home) p.stepsAbove := by
  intro a ha
  refine h.way _ ?_
  rw [hdown.directoryPlace_eq]
  exact (List.prefix_append_right_inj _).2 ha

end Files

end StyleBuild
