/-!
# The development banner

Readable output starts with a notice that the file is generated.
-/

namespace StyleBuild

def developmentBanner : String :=
  "/* SHEETPRESS DEVELOPMENT MODE ENABLED.

   WARNING: This file is automatically generated. Any modifications to this file will be lost!

   For more information on modifying CSS, please read:

   https://sass-lang.com/documentation/at-rules/import/
   https://sass-lang.com/documentation/variables/
 */"

/-- `css` behind the banner and an empty line. -/
def withBanner (css : String) : String := developmentBanner ++ "\n\n" ++ css

end StyleBuild
