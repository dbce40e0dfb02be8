import StyleBuild.Mounts
import StyleBuild.Text.Described

/-!
# Import lookup

A token, as it stands in an import, is looked up under every root, as written
and as a partial with `_` before its last segment; roots come first:

    roots = [custom, theme], token = forms/button

    custom/forms/button.scss
    custom/forms/_button.scss
    theme/forms/button.scss
    theme/forms/_button.scss

Plain style sheets and addresses are not looked up at all.
-/

namespace StyleBuild

open Text

def sourceExtension : String := ".scss"

/-- An import that was found: its logical path `root/variant` and the file behind it. -/
structure ResolvedImport where
  logical : String
  path : Path
  deriving DecidableEq, Repr

/-- Whether a token is none of the locator's business: plain style sheets and addresses. -/
def isPassthrough (token : String) : Bool :=
  let s := token.toList
  endsWith ".css".toList s || startsWith "http://".toList s || startsWith "https://".toList s

/-- `name` with the extension of sources, unless it has it. -/
def withSourceExtension (name : List Char) : List Char :=
  if endsWith sourceExtension.toList name then name else name ++ sourceExtension.toList

/-- `token` with `_` before its last segment, when that is not empty. -/
def partialName (token : List Char) : List Char :=
  let last := (token.reverse.takeWhile (· ≠ '/')).reverse
  if last.isEmpty then token else token.take (token.length - last.length) ++ '_' :: last

/-- The two names under which a token is looked up. -/
def candidateNames (token : String) : List String :=
  [withSourceExtension token.toList, withSourceExtension (partialName token.toList)].map
    String.ofList

/-- The roots of a lookup, the first one overriding those after it. -/
structure Locator where
  roots : List String
  deriving DecidableEq, Repr

namespace Locator

/-- Roots without the separators at their ends. -/
def ofRoots (roots : List String) : Locator :=
  ⟨roots.map fun r => String.ofList (r.toList.reverse.dropWhile (· = '/')).reverse⟩

def logicalPath (root name : String) : String :=
  if root.isEmpty then name else root ++ "/" ++ name

/-- The logical paths that a token may stand for, in order. -/
def candidates (l : Locator) (token : String) : List String :=
  if isPassthrough token then []
  else l.roots.flatMap fun root => (candidateNames token).map (logicalPath root)

/-- Goes through logical paths up to the first one with a file. -/
def search (find : String → Option Path) : List String → List String × Option ResolvedImport
  | [] => ([], none)
  | logical :: rest =>
    match find logical with
    | some path => ([logical], some ⟨logical, path⟩)
    | none =>
      let (asked, hit) := search find rest
      (logical :: asked, hit)

/-- The logical paths asked for while a token is looked up, and what was found. -/
def resolveTraced (l : Locator) (find : String → Option Path) (token : String) :
    List String × Option ResolvedImport :=
  search find (l.candidates token)

/-- The import that a token stands for. -/
def resolve (l : Locator) (find : String → Option Path) (token : String) :
    Option ResolvedImport :=
  (l.resolveTraced find token).2

/-- The locator on one line; what answers its look-ups is not shown. -/
def describe (l : Locator) : String :=
  described "ImportLocator"
    [("roots", quotedList l.roots), ("resolver", quoted "<ResourceResolver>")]

theorem search_snd (find : String → Option Path) (logicals : List String) :
    (search find logicals).2 =
      logicals.findSome? fun logical => (find logical).map (ResolvedImport.mk logical) := by
  induction logicals with
  | nil => rfl
  | cons logical rest ih =>
    rw [search, List.findSome?_cons]
    cases find logical <;> simp [ih]

end Locator

end StyleBuild
