import ByteScope.File.Path

/-!
# Where the store is kept

The folder named by a variable of the environment, or one in the user's home.
-/

namespace ByteScope

def homeVariable : String := "BINVIEW_HOME"

/-- The user's home; slashes at its end do not count, and without a name it is the root. -/
def userFolder (userHome : String) : Path :=
  let trimmed := (userHome.toList.reverse.dropWhile (· = '/')).reverse
  .ofString (if trimmed = [] then "/" else String.ofList trimmed)

/-- An empty variable counts as none. -/
def homePath (named : Option String) (userHome : String) : Path :=
  match named.filter (· ≠ "") with
  | some v => .ofString v
  | none => (userFolder userHome).child ".binview"

end ByteScope
