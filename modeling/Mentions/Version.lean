import Mentions.Text.Units

/-!
# Version

The name and version under which the program reports itself.
-/

namespace Mentions

/-- The program's name and version. -/
def version : Text := "mentioncore v0.1.0".toList

end Mentions
