import LayoutRules.Text.Basic

/-! File paths as written. Joining and taking the parent work on the text alone
and look at no file. -/
namespace LayoutRules

abbrev Path := Text

namespace Path

def isAbsolute (path : Path) : Bool := path.head? == some '/'

def endsInSlash (path : Path) : Bool := path.getLast? == some '/'

/-- The names between the slashes, with single and double dots among them. -/
def names (path : Path) : List Text := Text.fieldsBy (· == '/') path

/-- An absolute path replaces the base; any other is put behind it with a slash between. -/
def join (base path : Path) : Path :=
  if path.isAbsolute ∨ base = [] then path
  else if base.endsInSlash then base ++ path
  else base ++ '/' :: path

/-- What a path starts with before its names: the root, or one dot for the current directory. -/
def lead (path : Path) : Text :=
  match path with
  | '/' :: _ => ['/']
  | ['.'] => ['.']
  | '.' :: '/' :: _ => ['.']
  | _ => []

/-- Takes slashes and single dots off the end of a path that is given back to front. -/
def dropIdle : Text → Text
  | '/' :: rest => dropIdle rest
  | ['.'] => []
  | '.' :: '/' :: rest => dropIdle rest
  | text => text

/-- The path without its last name; the root and the empty path have no parent. -/
def parent? (path : Path) : Option Path :=
  match dropIdle (path.drop path.lead.length).reverse with
  | [] => if path.lead = ['.'] then some [] else none
  | text => some (path.lead ++ (dropIdle ((text.dropWhile (· ≠ '/')).drop 1)).reverse)

end Path
end LayoutRules
