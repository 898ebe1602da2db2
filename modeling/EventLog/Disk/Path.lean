import EventLog.Text.Fields

/-!
# EventLog.Disk.Path

Paths of files as text, and what can be told from the text alone.  Slashes
separate segments; empty segments mean nothing, and neither does a point,
except at the very start of a path without a root.
-/

namespace EventLog

/-- A path, as it was written. -/
structure Path where
  text : String
  deriving DecidableEq, Repr

namespace Path

/-- Whether a path starts at the root. -/
def isAbsolute (p : Path) : Bool := p.text.toList.head? == some '/'

/-- The segments between slashes, the empty ones too. -/
def segments (p : Path) : List (List Char) := Text.fields '/' p.text.toList

/-- A path below another; an absolute one takes the other's place. -/
def join (dir : Path) (name : String) : Path :=
  if (Path.mk name).isAbsolute then ⟨name⟩
  else if dir.text = "" ∨ dir.text.toList.getLast? = some '/' then ⟨dir.text ++ name⟩
  else ⟨dir.text ++ "/" ++ name⟩

/-- Whether a segment means something, by its position. -/
def isMeaningful (absolute : Bool) (index : Nat) (segment : List Char) : Bool :=
  !segment.isEmpty && (segment != ['.'] || (index == 0 && !absolute))

/-- The number of segments up to the last that means something. -/
def reach (absolute : Bool) (segments : List (List Char)) : Nat :=
  (segments.zipIdx.filter fun (s, i) => isMeaningful absolute i s).getLast?.elim 0 (·.2 + 1)

/-- The path of so many segments; the root, or nothing, if none of them means anything. -/
def upTo (p : Path) (count : Nat) : Path :=
  let front := p.segments.take count
  match reach p.isAbsolute front with
  | 0 => ⟨if p.isAbsolute then "/" else ""⟩
  | n => ⟨String.ofList (Text.joined '/' (front.take n))⟩

/-- The path without its last segment; the root and the empty path have none. -/
def parent? (p : Path) : Option Path :=
  match reach p.isAbsolute p.segments with
  | 0 => none
  | n + 1 => some (p.upTo n)

/-- The last segment, if it names something below the rest. -/
def fileName? (p : Path) : Option String :=
  match reach p.isAbsolute p.segments with
  | 0 => none
  | n + 1 =>
    match p.segments[n]? with
    | some name => if name = ['.'] ∨ name = ['.', '.'] then none else some (String.ofList name)
    | none => none

/-- A name without its extension: what follows the last point, unless the
point comes first. -/
def stem (name : List Char) : List Char :=
  match (Text.fields '.' name).dropLast with
  | [] => name
  | front => if (Text.joined '.' front).isEmpty then name else Text.joined '.' front

/-- The path with another extension of its last segment. -/
def withExtension (p : Path) (extension : String) : Path :=
  match p.fileName? with
  | none => p
  | some name =>
    let front := p.segments.take (reach p.isAbsolute p.segments - 1)
    ⟨String.ofList (Text.joined '/' (front ++ [stem name.toList ++ '.' :: extension.toList]))⟩

end Path

end EventLog
