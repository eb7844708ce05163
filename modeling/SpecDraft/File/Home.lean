import SpecDraft.Failure
import SpecDraft.File.Path

/-!
# Home directories

A path that is not absolute may start with a tilde: the own home directory, or with a name after
the tilde that of a user.
-/
set_option autoImplicit false

namespace SpecDraft

/-- The home directories of users by name; the own one has the empty name. -/
abbrev Homes := List (String × FilePath)

namespace FilePath

/-- The path with a tilde at its start replaced by the home directory that it stands for. -/
def expandHome (homes : Homes) (path : FilePath) : Outcome FilePath :=
  match path.isAbsolute, path.parts with
  | false, first :: rest =>
    if first.startsWith "~" then
      match homes.lookup (String.ofList (first.toList.drop 1)) with
      | some home => .ok { home with parts := home.parts ++ rest }
      | none => .error .unknownHome
    else .ok path
  | _, _ => .ok path

end FilePath
end SpecDraft
