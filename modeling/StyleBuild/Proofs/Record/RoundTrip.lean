import StyleBuild.Proofs.Json.Scalar
import StyleBuild.Record.Reader
import StyleBuild.Record.Writer

/-!
# Records are read back

The text of a record is an object whose fields are lines of a block; variables
and imports are blocks of their own. `lines` is what follows the first line of a
block, up to its end. The readers of JSON go through lines one at a time, and
`read_write` says that the record they find is the one that was written.
-/

namespace StyleBuild.CompileRecord

open Json

/-- A line feed and the indentation of a depth. -/
def margin (depth : Nat) : List Char := '\n' :: List.replicate (2 * depth) ' '

/-- The lines of a block behind the first one, and its end, before `rest`. -/
def linesAnd (closing : Char) (depth : Nat) (lines : List (List Char)) (rest : List Char) :
    List Char :=
  lines.flatMap (fun l => ',' :: (margin (depth + 1) ++ l)) ++ (margin depth ++ closing :: rest)

theorem linesAnd_nil (closing : Char) (depth : Nat) (rest : List Char) :
    linesAnd closing depth [] rest = margin depth ++ closing :: rest := rfl

theorem linesAnd_cons (closing : Char) (depth : Nat) (line : List Char)
    (lines : List (List Char)) (rest : List Char) :
    linesAnd closing depth (line :: lines) rest =
      ',' :: (margin (depth + 1) ++ (line ++ linesAnd closing depth lines rest)) := by
  simp [linesAnd]

theorem block_nil_append (opening closing : Char) (depth : Nat) (rest : List Char) :
    block opening closing depth [] ++ rest = opening :: closing :: rest := rfl

theorem block_cons_append (opening closing : Char) (depth : Nat) (line : List Char)
    (lines : List (List Char)) (rest : List Char) :
    block opening closing depth (line :: lines) ++ rest =
      opening :: (margin (depth + 1) ++ (line ++ linesAnd closing depth lines rest)) := by
  simp [block, linesAnd, margin]

theorem skipBlank_margin (depth : Nat) (rest : List Char) :
    skipBlank (margin depth ++ rest) = skipBlank rest := by
  have h : ∀ n, skipBlank (List.replicate n ' ' ++ rest) = skipBlank rest := by
    intro n
    induction n with
    | zero => rfl
    | succ n ih =>
        rw [List.replicate_succ, List.cons_append, skipBlank,
          List.dropWhile_cons_of_pos (by decide)]
        exact ih
  rw [margin, List.cons_append, skipBlank, List.dropWhile_cons_of_pos (by decide)]
  exact h (2 * depth)

theorem skipBlank_cons {c : Char} (hc : isBlank c = false) (rest : List Char) :
    skipBlank (c :: rest) = c :: rest := by
  rw [skipBlank, List.dropWhile_cons_of_neg (by simp [hc])]

theorem skipBlank_quote (s rest : List Char) : skipBlank (quote s ++ rest) = quote s ++ rest := by
  rw [quote_append]
  exact skipBlank_cons (by decide) _

/-! ## Lists of texts -/

theorem nextElement_margin_quote (depth : Nat) (s rest : List Char) :
    nextElement true (margin depth ++ (quote s ++ rest)) = .ok (some (quote s ++ rest)) := by
  rw [nextElement, skipBlank_margin, skipBlank_quote, quote_append]
  rfl

theorem nextElement_comma_quote (depth : Nat) (s rest : List Char) :
    nextElement false (',' :: (margin depth ++ (quote s ++ rest))) =
      .ok (some (quote s ++ rest)) := by
  rw [nextElement, skipBlank_cons (by decide)]
  simp only [Bool.false_eq_true, if_false, skipBlank_margin, skipBlank_quote]
  rw [quote_append]
  rfl

theorem nextElement_end (first : Bool) (depth : Nat) (rest : List Char) :
    nextElement first (margin depth ++ ']' :: rest) = .ok none := by
  rw [nextElement, skipBlank_margin, skipBlank_cons (by decide)]
  rfl

theorem readElements_linesAnd (wanted : Wanted) (texts : List (List Char)) (rest : List Char)
    {fuel : Nat} (hfuel : texts.length < fuel) :
    readElements wanted fuel false (linesAnd ']' 1 (texts.map quote) rest) =
      .ok (texts, margin 1 ++ ']' :: rest) := by
  induction texts generalizing fuel with
  | nil =>
      obtain ⟨fuel, rfl⟩ := Nat.exists_eq_succ_of_ne_zero (Nat.ne_of_gt hfuel)
      rw [List.map_nil, linesAnd_nil, readElements, nextElement_end]
      rfl
  | cons s texts ih =>
      obtain ⟨fuel, rfl⟩ := Nat.exists_eq_succ_of_ne_zero (Nat.ne_of_gt (Nat.zero_lt_of_lt hfuel))
      have ih := ih (Nat.lt_of_succ_lt_succ hfuel)
      rw [List.map_cons, linesAnd_cons, readElements, nextElement_comma_quote]
      simp only [bind, Except.bind, readString_quote wanted s _ (skipBlank_quote s _), ih]
      rfl

theorem endList_margin (depth : Nat) (rest : List Char) :
    endList (margin depth ++ ']' :: rest) = .ok rest := by
  rw [endList, skipBlank_margin, skipBlank_cons (by decide)]
  rfl

theorem length_le_linesAnd (closing : Char) (depth : Nat) (lines : List (List Char))
    (rest : List Char) : lines.length ≤ (linesAnd closing depth lines rest).length := by
  induction lines with
  | nil => exact Nat.zero_le _
  | cons line lines ih =>
      rw [linesAnd_cons]
      simp only [List.length_cons, List.length_append]
      omega

/-- A block of quoted texts is read as these texts. -/
theorem readStrings_block (wanted : Wanted) (texts : List (List Char)) (rest : List Char) :
    readStrings wanted (' ' :: (block '[' ']' 1 (texts.map quote) ++ rest)) =
      .ok (texts, rest) := by
  have hskip : ∀ s, skipBlank (' ' :: '[' :: s) = '[' :: s := fun s => by
    rw [skipBlank, List.dropWhile_cons_of_pos (by decide), List.dropWhile_cons_of_neg (by decide)]
  cases texts with
  | nil =>
      rw [List.map_nil, block_nil_append, readStrings, hskip]
      simp [readElements, nextElement, endList, skipBlank_cons (show isBlank ']' = false by decide),
        bind, Except.bind, pure, Except.pure]
  | cons s texts =>
      have hlen := length_le_linesAnd ']' 1 (texts.map quote) rest
      rw [List.length_map] at hlen
      rw [List.map_cons, block_cons_append, readStrings, hskip]
      simp only [readElements, nextElement_margin_quote, bind, Except.bind,
        readString_quote wanted s _ (skipBlank_quote s _)]
      rw [readElements_linesAnd wanted texts rest]
      · simp only [pure, Except.pure, endList_margin]
      · simp only [List.length_append]
        have hquote : 0 < (quote s).length := by simp [quote]
        omega

/-! ## Objects -/

theorem nextKey_margin_quote (depth : Nat) (s rest : List Char) :
    nextKey true (margin depth ++ (quote s ++ rest)) =
      .ok (some (s.flatMap quoteChar ++ '"' :: rest)) := by
  rw [nextKey, skipBlank_margin, skipBlank_quote, quote_append]
  rfl

theorem nextKey_comma_quote (depth : Nat) (s rest : List Char) :
    nextKey false (',' :: (margin depth ++ (quote s ++ rest))) =
      .ok (some (s.flatMap quoteChar ++ '"' :: rest)) := by
  rw [nextKey, skipBlank_cons (by decide)]
  simp only [Bool.false_eq_true, if_false, skipBlank_margin, skipBlank_quote]
  rw [quote_append]
  rfl

theorem nextKey_end (first : Bool) (depth : Nat) (rest : List Char) :
    nextKey first (margin depth ++ '}' :: rest) = .ok none := by
  rw [nextKey, skipBlank_margin, skipBlank_cons (by decide)]
  rfl

theorem readColon_colon (rest : List Char) : readColon (':' :: rest) = .ok rest := by
  rw [readColon, skipBlank_cons (by decide)]
  rfl

theorem endObject_margin (depth : Nat) (rest : List Char) :
    endObject (margin depth ++ '}' :: rest) = .ok rest := by
  rw [endObject, skipBlank_margin, skipBlank_cons (by decide)]
  rfl

theorem field_append (name : String) (value rest : List Char) :
    field name value ++ rest = quote name.toList ++ (':' :: ' ' :: (value ++ rest)) := by
  simp [field]

theorem readString_space_quote (wanted : Wanted) (s rest : List Char) :
    readString wanted (' ' :: (quote s ++ rest)) = .ok (s, rest) := by
  refine readString_quote wanted s rest ?_
  rw [skipBlank, List.dropWhile_cons_of_pos (by decide)]
  exact skipBlank_quote s rest

/-- The line of a variable. -/
def variableField (e : String × String) : List Char := field e.1 (quote e.2.toList)

/-- The texts of a variable. -/
def texts (e : String × String) : List Char × List Char := (e.1.toList, e.2.toList)

theorem readEntries_linesAnd (entries : List (String × String)) (rest : List Char) {fuel : Nat}
    (hfuel : entries.length < fuel) :
    readEntries fuel false (linesAnd '}' 1 (entries.map variableField) rest) =
      .ok (entries.map texts, margin 1 ++ '}' :: rest) := by
  induction entries generalizing fuel with
  | nil =>
      obtain ⟨fuel, rfl⟩ := Nat.exists_eq_succ_of_ne_zero (Nat.ne_of_gt hfuel)
      rw [List.map_nil, linesAnd_nil, readEntries, nextKey_end]
      rfl
  | cons e entries ih =>
      obtain ⟨fuel, rfl⟩ := Nat.exists_eq_succ_of_ne_zero (Nat.ne_of_gt (Nat.zero_lt_of_lt hfuel))
      have ih := ih (Nat.lt_of_succ_lt_succ hfuel)
      rw [List.map_cons, linesAnd_cons, variableField, field_append, readEntries,
        nextKey_comma_quote]
      simp only [bind, Except.bind, scanString_quote, readColon_colon, readString_space_quote, ih]
      rfl

/-- A block of variables is read as their names and values. -/
theorem readStringMap_block (entries : List (String × String)) (rest : List Char) :
    readStringMap (' ' :: (block '{' '}' 1 (entries.map variableField) ++ rest)) =
      .ok (entries.map texts, rest) := by
  have hskip : ∀ s, skipBlank (' ' :: '{' :: s) = '{' :: s := fun s => by
    rw [skipBlank, List.dropWhile_cons_of_pos (by decide), List.dropWhile_cons_of_neg (by decide)]
  cases entries with
  | nil =>
      rw [List.map_nil, block_nil_append, readStringMap, hskip]
      simp [readEntries, nextKey, endObject, skipBlank_cons (show isBlank '}' = false by decide),
        bind, Except.bind, pure, Except.pure]
  | cons e entries =>
      have hlen := length_le_linesAnd '}' 1 (entries.map variableField) rest
      rw [List.length_map] at hlen
      rw [List.map_cons, block_cons_append, variableField, field_append, readStringMap, hskip]
      simp only [readEntries, nextKey_margin_quote, bind, Except.bind, scanString_quote,
        readColon_colon, readString_space_quote]
      rw [readEntries_linesAnd entries rest]
      · simp only [pure, Except.pure, endObject_margin]
        rfl
      · simp only [List.length_append, List.length_cons]
        omega

/-! ## The record -/

theorem readBoolean_text (b : Bool) (rest : List Char) :
    readBoolean (' ' :: (booleanText b ++ rest)) = .ok (b, rest) := by
  have hskip : ∀ c s, isBlank c = false → skipBlank (' ' :: c :: s) = c :: s := fun c _ hc => by
    rw [skipBlank, List.dropWhile_cons_of_pos (by decide),
      List.dropWhile_cons_of_neg (by simp [hc])]
  cases b with
  | true =>
      have htext : booleanText true = 't' :: "rue".toList := by decide
      rw [htext, List.cons_append, readBoolean, hskip _ _ (by decide)]
      have hword : scanWord "rue".toList ("rue".toList ++ rest) = .ok rest := by
        simp [scanWord]
      simp only [hword]
      rfl
  | false =>
      have htext : booleanText false = 'f' :: "alse".toList := by decide
      rw [htext, List.cons_append, readBoolean, hskip _ _ (by decide)]
      have hword : scanWord "alse".toList ("alse".toList ++ rest) = .ok rest := by
        simp [scanWord]
      simp only [hword]
      rfl

/-- A value behind its colon goes into its field. -/
theorem readField_colon {α : Type} (name : String)
    {read : List Char → Except Stop (α × List Char)} (put : α → Draft) {value rest : List Char}
    {x : α} (h : read (' ' :: (value ++ rest)) = .ok (x, rest)) :
    readField name none read put (':' :: ' ' :: (value ++ rest)) = .ok (put x, rest) := by
  simp [readField, bind, Except.bind, pure, Except.pure, readColon_colon, h]

theorem readEntriesFrom_first {fuel : Nat} {d d' : Draft} {name : String} (depth : Nat)
    {value rest : List Char}
    (h : readEntry d name (':' :: ' ' :: (value ++ rest)) = .ok (d', rest)) :
    readEntriesFrom (fuel + 1) true d (margin depth ++ (field name value ++ rest)) =
      readEntriesFrom fuel false d' rest := by
  rw [field_append, readEntriesFrom, nextKey_margin_quote]
  simp only [bind, Except.bind, scanString_quote, String.ofList_toList, h]

theorem readEntriesFrom_next {fuel : Nat} {d d' : Draft} {name : String} {value : List Char}
    {lines : List (List Char)} {rest : List Char}
    (h : readEntry d name (':' :: ' ' :: (value ++ linesAnd '}' 0 lines rest)) =
      .ok (d', linesAnd '}' 0 lines rest)) :
    readEntriesFrom (fuel + 1) false d (linesAnd '}' 0 (field name value :: lines) rest) =
      readEntriesFrom fuel false d' (linesAnd '}' 0 lines rest) := by
  rw [linesAnd_cons, field_append, readEntriesFrom, nextKey_comma_quote]
  simp only [bind, Except.bind, scanString_quote, String.ofList_toList, h]

theorem readEntriesFrom_end (fuel : Nat) (d : Draft) (rest : List Char) :
    readEntriesFrom (fuel + 1) false d (linesAnd '}' 0 [] rest) =
      .ok (d, margin 0 ++ '}' :: rest) := by
  rw [linesAnd_nil, readEntriesFrom, nextKey_end]
  rfl

/-- The lines of a record behind its first one. -/
def laterFields (r : CompileRecord) : List (List Char) := r.fields.tail

theorem fields_eq (r : CompileRecord) :
    r.fields = field "version" (numberText r.version.toNat) :: r.laterFields := rfl

/-- What the fields of a record are read as. -/
def draft (r : CompileRecord) : Draft :=
  { version := some r.version.toNat
    file := some r.file.toList
    fingerprint := some r.fingerprint.text.toList
    compiledAt := some r.compiledAt.toNat
    production := some r.production
    bindings := some (r.bindings.entries.map texts)
    imports := if r.imports.isEmpty then none else some (r.imports.map Path.chars) }

theorem readVersion_numberText (n : UInt32) (rest : List Char) :
    readVersion (' ' :: (numberText n.toNat ++ ',' :: rest)) = .ok (n.toNat, ',' :: rest) :=
  readNatural_toDigits _ n.toNat_lt (by decide) rest

theorem readCompiledAt_numberText (n : UInt64) (rest : List Char) :
    readCompiledAt (' ' :: (numberText n.toNat ++ ',' :: rest)) = .ok (n.toNat, ',' :: rest) :=
  readNatural_toDigits _ n.toNat_lt le_rfl rest

/-! Each field is read into its place, when it was not read before. -/

theorem readEntry_version {d : Draft} (h : d.version = none) (n : UInt32) (rest : List Char) :
    readEntry d "version" (':' :: ' ' :: (numberText n.toNat ++ ',' :: rest)) =
      .ok ({ d with version := some n.toNat }, ',' :: rest) := by
  simp only [readEntry, if_true, h]
  exact readField_colon _ _ (readVersion_numberText n rest)

theorem readEntry_file {d : Draft} (h : d.file = none) (s rest : List Char) :
    readEntry d "file" (':' :: ' ' :: (quote s ++ rest)) =
      .ok ({ d with file := some s }, rest) := by
  simp only [readEntry, String.reduceEq, if_false, if_true, h]
  exact readField_colon _ _ (readString_space_quote _ s rest)

theorem readEntry_fingerprint {d : Draft} (h : d.fingerprint = none) (s rest : List Char) :
    readEntry d "fingerprint" (':' :: ' ' :: (quote s ++ rest)) =
      .ok ({ d with fingerprint := some s }, rest) := by
  simp only [readEntry, String.reduceEq, if_false, if_true, h]
  exact readField_colon _ _ (readString_space_quote _ s rest)

theorem readEntry_compiledAt {d : Draft} (h : d.compiledAt = none) (n : UInt64)
    (rest : List Char) :
    readEntry d "compiled_at" (':' :: ' ' :: (numberText n.toNat ++ ',' :: rest)) =
      .ok ({ d with compiledAt := some n.toNat }, ',' :: rest) := by
  simp only [readEntry, String.reduceEq, if_false, if_true, h]
  exact readField_colon _ _ (readCompiledAt_numberText n rest)

theorem readEntry_production {d : Draft} (h : d.production = none) (b : Bool)
    (rest : List Char) :
    readEntry d "production" (':' :: ' ' :: (booleanText b ++ rest)) =
      .ok ({ d with production := some b }, rest) := by
  simp only [readEntry, String.reduceEq, if_false, if_true, h]
  exact readField_colon _ _ (readBoolean_text b rest)

theorem readEntry_variables {d : Draft} (h : d.bindings = none) (l : List (String × String))
    (rest : List Char) :
    readEntry d "variables" (':' :: ' ' :: (block '{' '}' 1 (l.map variableField) ++ rest)) =
      .ok ({ d with bindings := some (l.map texts) }, rest) := by
  simp only [readEntry, String.reduceEq, if_false, if_true, h]
  exact readField_colon _ _ (readStringMap_block l rest)

theorem readEntry_imports {d : Draft} (h : d.imports = none) (l : List Path) (rest : List Char) :
    readEntry d "imports"
        (':' :: ' ' :: (block '[' ']' 1 (l.map fun p => quote p.chars) ++ rest)) =
      .ok ({ d with imports := some (l.map Path.chars) }, rest) := by
  have hquoted : (l.map fun p => quote p.chars) = (l.map Path.chars).map quote := by
    rw [List.map_map]
    rfl
  rw [hquoted]
  simp only [readEntry, String.reduceEq, if_false, if_true, h]
  exact readField_colon _ _ (readStrings_block _ (l.map Path.chars) rest)

theorem laterFields_eq (r : CompileRecord) :
    r.laterFields = field "file" (quote r.file.toList) ::
      field "fingerprint" (quote r.fingerprint.text.toList) ::
      field "compiled_at" (numberText r.compiledAt.toNat) ::
      field "production" (booleanText r.production) ::
      field "variables" (block '{' '}' 1 (r.bindings.entries.map variableField)) ::
      (if r.imports.isEmpty then []
      else [field "imports" (block '[' ']' 1 (r.imports.map fun p => quote p.chars))]) :=
  rfl

/-- The fields of a record are read one after the other into its draft. -/
theorem readEntriesFrom_fields (r : CompileRecord) (fuel : Nat) (rest : List Char) :
    readEntriesFrom (fuel + 8) true .blank
        (margin 1 ++ (field "version" (numberText r.version.toNat) ++
          linesAnd '}' 0 r.laterFields rest)) =
      .ok (r.draft, margin 0 ++ '}' :: rest) := by
  rw [laterFields_eq,
    readEntriesFrom_first 1 (by rw [linesAnd_cons]; exact readEntry_version rfl _ _),
    readEntriesFrom_next (readEntry_file rfl _ _),
    readEntriesFrom_next (readEntry_fingerprint rfl _ _),
    readEntriesFrom_next (by rw [linesAnd_cons]; exact readEntry_compiledAt rfl _ _),
    readEntriesFrom_next (readEntry_production rfl _ _),
    readEntriesFrom_next (readEntry_variables rfl _ _)]
  cases hempty : r.imports.isEmpty with
  | true =>
      rw [if_pos rfl, readEntriesFrom_end, draft, hempty]
      rfl
  | false =>
      rw [if_neg (by simp), readEntriesFrom_next (readEntry_imports rfl _ _), readEntriesFrom_end,
        draft, hempty]
      rfl

theorem variablesOf_texts (d : Dictionary String) : variablesOf (d.entries.map texts) = d := by
  have h : (d.entries.map texts).map (fun e => (String.ofList e.1, String.ofList e.2)) =
      d.entries := by
    rw [List.map_map]
    exact List.map_id'' (fun e => by simp [texts]) d.entries
  rw [variablesOf, h, Dictionary.ofList_entries]

theorem map_ofChars_chars (l : List Path) : (l.map Path.chars).map Path.ofChars = l := by
  rw [List.map_map]
  exact List.map_id'' (fun p => by simp [Path.ofChars, Path.chars]) l

/-- A draft of all fields is the record. -/
theorem record?_draft (r : CompileRecord) : r.draft.record? = .ok r := by
  have himports : ((r.draft.imports.getD []).map Path.ofChars) = r.imports := by
    cases hempty : r.imports.isEmpty with
    | true =>
        rw [draft, hempty]
        exact (List.isEmpty_iff.1 hempty).symm
    | false =>
        rw [draft, hempty]
        exact map_ofChars_chars r.imports
  have hbindings : variablesOf (r.draft.bindings.getD []) = r.bindings :=
    variablesOf_texts r.bindings
  simp only [Draft.record?, himports, hbindings]
  simp [draft, bind, Except.bind, pure, Except.pure]

theorem readObject_fields (r : CompileRecord) :
    readObject (margin 1 ++ (field "version" (numberText r.version.toNat) ++
      linesAnd '}' 0 r.laterFields [])) = .ok (r, []) := by
  have hlength : 8 ≤ (field "version" (numberText r.version.toNat)).length := by
    simp [field, quote, quoteChar]
  obtain ⟨fuel, hfuel⟩ : ∃ fuel, (margin 1 ++ (field "version" (numberText r.version.toNat) ++
      linesAnd '}' 0 r.laterFields [])).length + 1 = fuel + 8 := by
    refine Nat.exists_eq_add_of_le' ?_
    simp only [List.length_append]
    omega
  rw [readObject, hfuel, readEntriesFrom_fields]
  simp only [bind, Except.bind, record?_draft, endObject_margin]
  rfl

/-- The text of a record is read as that record. -/
theorem read_write (r : CompileRecord) : CompileRecord.read r.write = .ok r := by
  have htext : r.write.toList = '{' :: (margin 1 ++
      (field "version" (numberText r.version.toNat) ++ linesAnd '}' 0 r.laterFields [])) := by
    have hblock := block_cons_append '{' '}' 0 (field "version" (numberText r.version.toNat))
      r.laterFields []
    rw [List.append_nil] at hblock
    rw [write, String.toList_ofList, writeChars, fields_eq, hblock]
  have hchars : readChars r.write.toList = .ok r := by
    rw [htext, readChars, skipBlank_cons (by decide)]
    simp only [bind, Except.bind, readObject_fields]
    rfl
  rw [CompileRecord.read, hchars]

end StyleBuild.CompileRecord
