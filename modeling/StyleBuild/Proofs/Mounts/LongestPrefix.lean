import StyleBuild.Publisher.Publish
import StyleBuild.Proofs.Files.Directories
import StyleBuild.Proofs.Mounts.Selection

/-!
# Mounts by segments

A logical path and the names of mounts are read as lists of segments. A name
fits when its segments begin those of the path (`fits_iff_segments`), and of two
names that fit the longer text has more segments (`size_le_iff`), so the mount
that is selected is the one with the longest beginning
(`owns_iff_longestPrefix`).

Which mount that is depends on the names and their directories alone, and not on
the order in which they were added: mounts with the same directories under every
name select the same (`select_congr`).
-/

namespace StyleBuild

open Text

namespace Text

theorem joined_append (sep : Char) {a b : List (List Char)} (ha : a ≠ []) (hb : b ≠ []) :
    joined sep (a ++ b) = joined sep a ++ sep :: joined sep b := by
  induction a with
  | nil => exact absurd rfl ha
  | cons l a ih =>
      cases a with
      | nil =>
          obtain ⟨m, b, rfl⟩ := List.exists_cons_of_ne_nil hb
          rfl
      | cons l' a =>
          have htail := ih (List.cons_ne_nil l' a)
          simp only [List.cons_append] at htail
          simp only [List.cons_append, joined, htail, List.append_assoc]

end Text

namespace Mounts

/-- The segments of a name, of which the empty name has none. -/
def nameSegments (name : String) : List (List Char) :=
  if name.toList = [] then [] else segments '/' name.toList

theorem joined_nameSegments (name : String) : joined '/' (nameSegments name) = name.toList := by
  unfold nameSegments
  split
  · next hname => rw [hname, joined]
  · exact joined_segments _ _

/-- A name fits when its segments begin those of the logical path, whose other segments are
left. -/
theorem fits_iff_segments {name logical : String} {rest : List Char} :
    Fits name.toList logical.toList rest ↔
      ∃ segs, segments '/' logical.toList = nameSegments name ++ segs ∧
        rest = joined '/' segs := by
  by_cases hname : name.toList = []
  · simp [Fits, nameSegments, hname, joined_segments]
  · simp only [Fits, nameSegments, hname, if_false, false_and, false_or, ne_eq, not_false_eq_true,
      true_and]
    constructor
    · rintro (⟨hlogical, rfl⟩ | hlogical)
      · exact ⟨[], by rw [hlogical, List.append_nil], rfl⟩
      · exact ⟨segments '/' rest, by rw [hlogical, segments_append_sep],
          (joined_segments _ _).symm⟩
    · rintro ⟨segs, hsegs, rfl⟩
      have hlogical := congrArg (joined '/') hsegs
      rw [joined_segments] at hlogical
      rcases eq_or_ne segs [] with rfl | hne
      · rw [List.append_nil, joined_segments] at hlogical
        exact Or.inl ⟨hlogical, rfl⟩
      · rw [joined_append _ (segments_ne_nil _ _) hne, joined_segments] at hlogical
        exact Or.inr hlogical

theorem exists_fits_iff {name logical : String} :
    (∃ rest, Fits name.toList logical.toList rest) ↔
      nameSegments name <+: segments '/' logical.toList := by
  simp only [fits_iff_segments]
  constructor
  · rintro ⟨-, segs, hsegs, -⟩
    exact ⟨segs, hsegs.symm⟩
  · rintro ⟨segs, hsegs⟩
    exact ⟨_, segs, hsegs.symm, rfl⟩

theorem size_le_of_isPrefix {a b : String} (h : nameSegments a <+: nameSegments b) :
    a.utf8ByteSize ≤ b.utf8ByteSize := by
  have hchars := @joined_isPrefix '/' _ _ h
  rw [joined_nameSegments, joined_nameSegments] at hchars
  obtain ⟨rest, rfl⟩ := exists_eq_append_of_isPrefix hchars
  rw [String.utf8ByteSize_append]
  exact Nat.le_add_right _ _

/-- Of the names that begin one logical path the longer text has more segments. -/
theorem size_le_iff {a b logical : String} (ha : nameSegments a <+: segments '/' logical.toList)
    (hb : nameSegments b <+: segments '/' logical.toList) :
    a.utf8ByteSize ≤ b.utf8ByteSize ↔ (nameSegments a).length ≤ (nameSegments b).length := by
  constructor
  · intro hsize
    by_contra hlength
    have hba : nameSegments b <+: nameSegments a :=
      List.prefix_of_prefix_length_le hb ha (Nat.le_of_not_le hlength)
    obtain ⟨resta, hfitsa⟩ := exists_fits_iff.2 ha
    obtain ⟨restb, hfitsb⟩ := exists_fits_iff.2 hb
    have hab : a = b := eq_of_isPrefix hfitsa.isPrefix hfitsb.isPrefix
      (le_antisymm hsize (size_le_of_isPrefix hba))
    exact hlength (by rw [hab])
  · exact fun hlength => size_le_of_isPrefix (List.prefix_of_prefix_length_le ha hb hlength)

/-- The segments of a mount's name begin those of a logical path, which goes on with `rest`, and
no other mount has a longer beginning of it. -/
structure LongestPrefix (m : Mounts) (logical : String) (mount : Mount)
    (rest : List (List Char)) : Prop where
  mem : mount ∈ m.all
  segments_eq : segments '/' logical.toList = nameSegments mount.name ++ rest
  longest : ∀ mount' ∈ m.all, nameSegments mount'.name <+: segments '/' logical.toList →
    (nameSegments mount'.name).length ≤ (nameSegments mount.name).length

/-- The path of the segments that are left below a mount. -/
def remainder (rest : List (List Char)) : Path := Path.ofChars (joined '/' rest)

variable {m m' : Mounts} {logical : String} {mount mount' : Mount} {rest rest' : List (List Char)}

theorem LongestPrefix.isPrefix (h : m.LongestPrefix logical mount rest) :
    nameSegments mount.name <+: segments '/' logical.toList := ⟨rest, h.segments_eq.symm⟩

/-- A segment that is left holds no separator. -/
theorem LongestPrefix.notMem (h : m.LongestPrefix logical mount rest) : ∀ s ∈ rest, '/' ∉ s :=
  fun s hs => notMem_of_mem_segments '/' logical.toList s
    (by rw [h.segments_eq]; exact List.mem_append_right _ hs)

theorem owns_iff_longestPrefix {path : Path} :
    m.Owns logical mount path ↔
      ∃ rest, m.LongestPrefix logical mount rest ∧ path = remainder rest := by
  have hpath : ∀ segs, path.chars = joined '/' segs ↔ path = remainder segs := fun segs => by
    rw [remainder, Path.ofChars, Path.chars, ← String.ofList_inj, String.ofList_toList]
    exact ⟨fun h => by rw [← h], fun h => by rw [h]⟩
  constructor
  · intro h
    obtain ⟨segs, hsegs, hrest⟩ := fits_iff_segments.1 h.fits
    refine ⟨segs, ⟨h.mem, hsegs, fun mount' hmem hprefix => ?_⟩, (hpath segs).1 hrest⟩
    obtain ⟨rest', hfits⟩ := exists_fits_iff.2 hprefix
    exact (size_le_iff hprefix ⟨segs, hsegs.symm⟩).1 (h.longest mount' hmem rest' hfits)
  · rintro ⟨segs, h, hrest⟩
    refine ⟨h.mem, fits_iff_segments.2 ⟨segs, h.segments_eq, (hpath segs).2 hrest⟩,
      fun mount' hmem rest' hfits => ?_⟩
    have hprefix := exists_fits_iff.1 ⟨rest', hfits⟩
    exact (size_le_iff hprefix h.isPrefix).2 (h.longest mount' hmem hprefix)

/-- What is left leads up when one of its segments does. -/
theorem LongestPrefix.isDown_remainder (h : m.LongestPrefix logical mount rest) :
    (remainder rest).IsDown ↔ ['.', '.'] ∉ rest := by
  rw [Path.IsDown, remainder, Path.chars_ofChars]
  rcases eq_or_ne rest [] with rfl | hne
  · simp [joined, segments]
  · rw [segments_joined hne h.notMem]

/-- The three ways in which the selection of a mount ends. -/
theorem select_cases (m : Mounts) (logical : String) :
    (m.select logical = .error (.unknownMount logical) ∧
      ∀ mount ∈ m.all, ¬ nameSegments mount.name <+: segments '/' logical.toList) ∨
    ∃ mount rest, m.LongestPrefix logical mount rest ∧
      ((m.select logical = .error (.invalidResourcePath logical) ∧
          ((remainder rest).isAbsolute = true ∨ ['.', '.'] ∈ rest)) ∨
        (m.select logical = .ok (mount, remainder rest) ∧
          (remainder rest).isAbsolute = false ∧ ['.', '.'] ∉ rest)) := by
  unfold select
  simp only
  split
  · next hnone =>
    refine Or.inl ⟨rfl, fun mount hmem hprefix => ?_⟩
    obtain ⟨rest, hfits⟩ := exists_fits_iff.2 hprefix
    have hhit := mem_hits.2 ⟨hmem, hfits⟩
    rw [longest_eq_none_iff.1 hnone] at hhit
    cases hhit
  · next mount chars hlongest =>
    obtain ⟨rest, hlong, hrest⟩ := owns_iff_longestPrefix.1 (owns_of_longest hlongest)
    refine Or.inr ⟨mount, rest, hlong, ?_⟩
    rw [hrest]
    have hescapes := escapes_eq_false_iff (remainder rest)
    rw [hlong.isDown_remainder] at hescapes
    split
    · next htrue =>
      refine Or.inl ⟨rfl, ?_⟩
      by_contra hno
      rw [not_or, Bool.not_eq_true] at hno
      rw [hescapes.2 hno] at htrue
      cases htrue
    · next hfalse => exact Or.inr ⟨rfl, hescapes.1 (Bool.eq_false_iff.2 hfalse)⟩

theorem LongestPrefix.unique (hm : m.Distinct) (h : m.LongestPrefix logical mount rest)
    (h' : m.LongestPrefix logical mount' rest') : mount = mount' ∧ rest = rest' := by
  obtain ⟨rfl, -⟩ := (owns_iff_longestPrefix.2 ⟨rest, h, rfl⟩).unique hm
    (owns_iff_longestPrefix.2 ⟨rest', h', rfl⟩)
  exact ⟨rfl, List.append_cancel_left (h.segments_eq.symm.trans h'.segments_eq)⟩

/-- A logical path is taken by the mount with the longest beginning of it, when what is left stays
below the mount. -/
theorem select_eq_ok_iff_longestPrefix (hm : m.Distinct) {path : Path} :
    m.select logical = .ok (mount, path) ↔
      ∃ rest, m.LongestPrefix logical mount rest ∧ path = remainder rest ∧
        (remainder rest).isAbsolute = false ∧ ['.', '.'] ∉ rest := by
  rw [select_eq_ok_iff hm, owns_iff_longestPrefix]
  constructor
  · rintro ⟨⟨rest, hlong, rfl⟩, hrelative, hdown⟩
    exact ⟨rest, hlong, rfl, hrelative, hlong.isDown_remainder.1 hdown⟩
  · rintro ⟨rest, hlong, rfl, hrelative, hdown⟩
    exact ⟨⟨rest, hlong, rfl⟩, hrelative, hlong.isDown_remainder.2 hdown⟩

theorem select_eq_error_iff (hm : m.Distinct) {e : Error} :
    m.select logical = .error e ↔
      e = .unknownMount logical ∧
          (∀ mount ∈ m.all, ¬ nameSegments mount.name <+: segments '/' logical.toList) ∨
        e = .invalidResourcePath logical ∧
          ∃ mount rest, m.LongestPrefix logical mount rest ∧
            ((remainder rest).isAbsolute = true ∨ ['.', '.'] ∈ rest) := by
  rcases select_cases m logical with ⟨hselect, hnone⟩ | ⟨mount, rest, hlong, h⟩
  · have hno : ∀ mount rest, ¬ m.LongestPrefix logical mount rest :=
      fun mount rest hlong => hnone mount hlong.mem hlong.isPrefix
    rw [hselect]
    constructor
    · intro he
      cases he
      exact Or.inl ⟨rfl, hnone⟩
    · rintro (⟨rfl, -⟩ | ⟨-, mount, rest, hlong, -⟩)
      · rfl
      · exact absurd hlong (hno mount rest)
  · have hfit : ¬ ∀ mount ∈ m.all, ¬ nameSegments mount.name <+: segments '/' logical.toList :=
      fun hnone => hnone mount hlong.mem hlong.isPrefix
    rcases h with ⟨hselect, hout⟩ | ⟨hselect, hrelative, hdown⟩
    · rw [hselect]
      constructor
      · intro he
        cases he
        exact Or.inr ⟨rfl, mount, rest, hlong, hout⟩
      · rintro (⟨-, hnone⟩ | ⟨rfl, -⟩)
        · exact absurd hnone hfit
        · rfl
    · rw [hselect]
      constructor
      · intro he
        cases he
      · rintro (⟨-, hnone⟩ | ⟨-, mount', rest', hlong', hout⟩)
        · exact absurd hnone hfit
        · obtain ⟨rfl, rfl⟩ := hlong.unique hm hlong'
          rw [hrelative] at hout
          rcases hout with habsolute | hup
          · cases habsolute
          · exact absurd hup hdown

/-- The directories under each name are those of the mount of that name. -/
theorem dirs?_eq_some_iff (hm : m.Distinct) {name : String} {dirs : List Path} :
    m.dirs? name = some dirs ↔ ⟨name, dirs⟩ ∈ m.all := by
  unfold dirs?
  rw [Option.map_eq_some_iff]
  constructor
  · rintro ⟨mount, hfind, rfl⟩
    have hname : mount.name = name := by simpa using List.find?_some hfind
    rw [← hname]
    exact List.mem_of_find?_eq_some hfind
  · intro hmem
    cases hfind : m.all.find? (·.name = name) with
    | none => exact absurd (decide_eq_true rfl) (List.find?_eq_none.1 hfind _ hmem)
    | some mount =>
        have hname : mount.name = name := by simpa using List.find?_some hfind
        rw [List.inj_on_of_nodup_map hm (List.mem_of_find?_eq_some hfind) hmem hname]
        exact ⟨_, rfl, rfl⟩

theorem dirs?_congr (hm : m.Distinct) (hm' : m'.Distinct)
    (h : ∀ mount, mount ∈ m'.all ↔ mount ∈ m.all) (name : String) :
    m'.dirs? name = m.dirs? name := by
  refine Option.ext fun dirs => ?_
  rw [dirs?_eq_some_iff hm, dirs?_eq_some_iff hm', h]

theorem mem_congr (hm : m.Distinct) (hm' : m'.Distinct) (h : ∀ name, m'.dirs? name = m.dirs? name)
    (mount : Mount) : mount ∈ m'.all ↔ mount ∈ m.all := by
  rw [← dirs?_eq_some_iff hm, ← dirs?_eq_some_iff hm', h]

theorem longestPrefix_congr (h : ∀ mount, mount ∈ m'.all ↔ mount ∈ m.all) :
    m'.LongestPrefix logical mount rest ↔ m.LongestPrefix logical mount rest := by
  constructor
  · exact fun hlong => ⟨(h _).1 hlong.mem, hlong.segments_eq,
      fun mount' hmem => hlong.longest mount' ((h _).2 hmem)⟩
  · exact fun hlong => ⟨(h _).2 hlong.mem, hlong.segments_eq,
      fun mount' hmem => hlong.longest mount' ((h _).1 hmem)⟩

/-- Mounts with the same directories under every name select the same. -/
theorem select_congr (hm : m.Distinct) (hm' : m'.Distinct)
    (h : ∀ name, m'.dirs? name = m.dirs? name) (logical : String) :
    m'.select logical = m.select logical := by
  have hmem := mem_congr hm hm' h
  cases hselect : m.select logical with
  | ok hit =>
      rw [select_eq_ok_iff_longestPrefix hm] at hselect
      rw [select_eq_ok_iff_longestPrefix hm']
      simpa only [longestPrefix_congr hmem] using hselect
  | error e =>
      rw [select_eq_error_iff hm] at hselect
      rw [select_eq_error_iff hm']
      simpa only [longestPrefix_congr hmem, hmem] using hselect

/-! ### Names and directories of mounts that were added one by one -/

theorem dirs?_add (m : Mounts) (added : String) (dirs : List Path) (name : String) :
    (m.add added dirs).dirs? name =
      if String.ofList (trimSeparators added.toList) = name then some dirs else m.dirs? name := by
  unfold dirs? add
  generalize String.ofList (trimSeparators added.toList) = trimmed
  simp only [List.find?_append, List.find?_singleton]
  by_cases hname : trimmed = name
  · have hnone : (m.all.filter fun mount => mount.name ≠ trimmed).find? (·.name = name) = none := by
      rw [List.find?_eq_none]
      intro mount hmem
      have hne : mount.name ≠ trimmed := by simpa using (List.mem_filter.1 hmem).2
      simpa [← hname] using hne
    rw [hnone, decide_eq_true hname, if_pos rfl, if_pos hname]
    rfl
  · have hsame : (m.all.filter fun mount => mount.name ≠ trimmed).find? (·.name = name) =
        m.all.find? (·.name = name) := by
      rw [List.find?_filter]
      refine congrArg (fun p => m.all.find? p) (funext fun mount => ?_)
      by_cases h : mount.name = name
      · simp [h, Ne.symm hname]
      · simp [h]
    rw [hsame, decide_eq_false hname, if_neg Bool.false_ne_true, if_neg hname, Option.or_none]

theorem ofList_concat (calls : List (String × List Path)) (call : String × List Path) :
    ofList (calls ++ [call]) = (ofList calls).add call.1 call.2 := by
  rw [ofList, List.foldl_append]
  rfl

/-- The directories under a name are those of the last call for it. -/
theorem dirs?_ofList (calls : List (String × List Path)) (name : String) :
    (ofList calls).dirs? name =
      (calls.reverse.find? fun call =>
        String.ofList (trimSeparators call.1.toList) = name).map (·.2) := by
  induction calls using List.reverseRecOn with
  | nil => rfl
  | append_singleton calls call ih =>
      rw [ofList_concat, dirs?_add, ih, List.reverse_concat, List.find?_cons]
      split
      · next hname => rw [decide_eq_true hname]; rfl
      · next hname => rw [decide_eq_false hname]

theorem trimSeparators_head? (s : List Char) : (trimSeparators s).head? ≠ some '/' := by
  intro h
  have hprefix : trimSeparators s <+: s.dropWhile (· = '/') := List.rdropWhile_prefix _ _
  obtain ⟨t, ht⟩ := List.head?_eq_some_iff.1 h
  obtain ⟨u, hu⟩ := hprefix
  have hnot := List.head?_dropWhile_not (fun c : Char => decide (c = '/')) s
  rw [← hu, ht] at hnot
  simp at hnot

theorem trimSeparators_getLast? (s : List Char) : (trimSeparators s).getLast? ≠ some '/' := by
  intro h
  obtain ⟨t, ht⟩ := List.getLast?_eq_some_iff.1 h
  have hrdrop : (s.dropWhile (· = '/')).rdropWhile (· = '/') = t ++ ['/'] := ht
  have hnot := List.rdropWhile_last_not (fun c : Char => decide (c = '/'))
    (s.dropWhile (· = '/')) (by rw [hrdrop]; simp)
  simp [hrdrop] at hnot

theorem exists_call_of_mem {calls : List (String × List Path)} (h : mount ∈ (ofList calls).all) :
    ∃ call ∈ calls, String.ofList (trimSeparators call.1.toList) = mount.name := by
  have hdirs := (dirs?_eq_some_iff (distinct_ofList calls)).2 h
  rw [dirs?_ofList, Option.map_eq_some_iff] at hdirs
  obtain ⟨call, hfind, -⟩ := hdirs
  exact ⟨call, List.mem_reverse.1 (List.mem_of_find?_eq_some hfind),
    by simpa using List.find?_some hfind⟩

/-- No name of a mount starts or ends with a separator. -/
theorem ends_of_mem {calls : List (String × List Path)} (h : mount ∈ (ofList calls).all) :
    mount.name.toList.head? ≠ some '/' ∧ mount.name.toList.getLast? ≠ some '/' := by
  obtain ⟨call, -, hname⟩ := exists_call_of_mem h
  rw [← hname, String.toList_ofList]
  exact ⟨trimSeparators_head? _, trimSeparators_getLast? _⟩

/-! ### What depends on the selected mount only -/

/-- Where output for a logical path goes, with its parent directories made. -/
def prepare (m : Mounts) (w : World) (logical : String) : World × Except Error Path :=
  match m.writable logical with
  | .error e => (w, .error e)
  | .ok output =>
    match w.createParents output with
    | (w, .error e) => (w, .error e)
    | (w, .ok ()) => (w, .ok output)

/-- The directory of an output is made as its mount says. -/
theorem locate_eq_prepare (p : Publisher) (w : World) (entry : String) :
    p.locate w entry =
      match p.outputId entry with
      | .error e => (w, .finished (.error e))
      | .ok id =>
        match p.mounts.prepare w id with
        | (w, .error e) => (w, .finished (.error e))
        | (w, .ok output) => (w, .located entry id output) := by
  unfold Publisher.locate prepare
  cases p.outputId entry with
  | error e => rfl
  | ok id =>
      cases hwritable : p.mounts.writable id with
      | error e => simp only [hwritable]
      | ok output =>
          simp only [hwritable]
          rcases w.createParents output with ⟨w', _ | _⟩ <;> rfl

theorem find?_congr (h : m'.select logical = m.select logical) (isFile : Path → Bool) :
    m'.find? isFile logical = m.find? isFile logical := by
  rw [find?, find?, candidates, candidates, h]

theorem prepare_congr (h : m'.select logical = m.select logical) (w : World) :
    m'.prepare w logical = m.prepare w logical := by
  rw [prepare, prepare, writable, writable, h]

/-- Mounts that are added one by one have different names without separators at their ends, and
under each name the directories of the last call for it. A logical path is taken by the mount whose
segments are its longest beginning; it is refused when there is none, and when what is left below
the mount starts at the root or leads up. So calls that end in the same directories under every name
find the same files and put output into the same places, whatever their order. -/
theorem ofList_selects_longest (calls : List (String × List Path)) :
    ((ofList calls).Distinct ∧
      (∀ mount ∈ (ofList calls).all,
        mount.name.toList.head? ≠ some '/' ∧ mount.name.toList.getLast? ≠ some '/') ∧
      ∀ name, (ofList calls).dirs? name =
        (calls.reverse.find? fun call =>
          String.ofList (trimSeparators call.1.toList) = name).map (·.2)) ∧
    (∀ logical mount path, (ofList calls).select logical = .ok (mount, path) ↔
      ∃ rest, (ofList calls).LongestPrefix logical mount rest ∧ path = remainder rest ∧
        (remainder rest).isAbsolute = false ∧ ['.', '.'] ∉ rest) ∧
    (∀ logical e, (ofList calls).select logical = .error e ↔
      e = .unknownMount logical ∧
          (∀ mount ∈ (ofList calls).all,
            ¬ nameSegments mount.name <+: segments '/' logical.toList) ∨
        e = .invalidResourcePath logical ∧
          ∃ mount rest, (ofList calls).LongestPrefix logical mount rest ∧
            ((remainder rest).isAbsolute = true ∨ ['.', '.'] ∈ rest)) ∧
    ∀ calls', (∀ name, (ofList calls').dirs? name = (ofList calls).dirs? name) →
      ∀ logical, (∀ isFile, (ofList calls').find? isFile logical =
          (ofList calls).find? isFile logical) ∧
        ∀ w, (ofList calls').prepare w logical = (ofList calls).prepare w logical := by
  have hm := distinct_ofList calls
  refine ⟨⟨hm, fun mount => ends_of_mem, dirs?_ofList calls⟩, fun logical mount path =>
    select_eq_ok_iff_longestPrefix hm, fun logical e => select_eq_error_iff hm,
    fun calls' hdirs logical => ?_⟩
  have hselect := select_congr hm (distinct_ofList calls') hdirs logical
  exact ⟨fun isFile => find?_congr hselect isFile, fun w => prepare_congr hselect w⟩

/-- Mounts for a theme, for a part of it and for everything else. -/
def layered : List (String × List Path) :=
  [("theme", [⟨"broad"⟩]), ("/theme/scss/", [⟨"narrow"⟩]), ("", [⟨"top"⟩]),
    ("theme//", [⟨"child"⟩, ⟨"broad"⟩])]

/-- The same mounts, in another order and without the call that is replaced. -/
def relayered : List (String × List Path) :=
  [("theme/scss", [⟨"narrow"⟩]), ("theme", [⟨"child"⟩, ⟨"broad"⟩]), ("/", [⟨"top"⟩])]

theorem dirs?_relayered (name : String) :
    (ofList relayered).dirs? name = (ofList layered).dirs? name := by
  refine dirs?_congr (distinct_ofList _) (distinct_ofList _) (fun mount => ?_) name
  have hperm : (ofList relayered).all.Perm (ofList layered).all := by decide +kernel
  exact hperm.mem_iff

theorem ofList_selects_longest_layered :
    (∀ name, (ofList relayered).dirs? name = (ofList layered).dirs? name) ∧
    (∀ logical isFile, (ofList relayered).find? isFile logical =
      (ofList layered).find? isFile logical) ∧
    (∀ logical w, (ofList relayered).prepare w logical = (ofList layered).prepare w logical) ∧
    (ofList layered).select "theme/scss/a.scss" = .ok (⟨"theme/scss", [⟨"narrow"⟩]⟩, ⟨"a.scss"⟩) ∧
    (ofList layered).select "theme/scss_a" =
      .ok (⟨"theme", [⟨"child"⟩, ⟨"broad"⟩]⟩, ⟨"scss_a"⟩) ∧
    (ofList layered).select "themes/x" = .ok (⟨"", [⟨"top"⟩]⟩, ⟨"themes/x"⟩) ∧
    (ofList layered).select "theme//x" = .error (.invalidResourcePath "theme//x") :=
  have hsame := (ofList_selects_longest layered).2.2.2 relayered dirs?_relayered
  ⟨dirs?_relayered, fun logical => (hsame logical).1, fun logical => (hsame logical).2,
    by decide +kernel, by decide +kernel, by decide +kernel, by decide +kernel⟩

end Mounts

end StyleBuild
