import StyleBuild.Scss.Run

/-!
# The engine for SCSS

The engine that compiles style sheets unless another one is given.
-/

namespace StyleBuild

def scssEngine : Engine := .ofDialogue "grass" Scss.compile

end StyleBuild
