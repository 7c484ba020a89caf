/-!
# Letters of Either Case

Names that people type in settings and in file names are compared without regard
to the case of ASCII letters. Other letters are compared as they are.

## Main definitions

* `sameLetters`: Whether two texts differ at most in the case of ASCII letters.
-/

namespace PackageSymbols

namespace Text

/-- Whether two texts differ at most in the case of ASCII letters. -/
def sameLetters (s t : String) : Bool :=
  s.toList.map Char.toLower == t.toList.map Char.toLower

end Text

end PackageSymbols
