import Btos.Util.Strings

/-!
# Paths in the shell

`parse_path` of `path.cpp` and what it calls. The sections of a path are collected in a vector, the
drive being the first of them; a path that has two drives, or goes up from its drive, is refused and
gives an empty string.
-/

namespace Cmd

/-- `is_absolute` -/
def isAbsolute : Str → Bool
  | [] => false
  | c :: path => if c = '/' then false else if c = ':' then true else isAbsolute path

/-- `get_drive` -/
def getDrive : Str → Str
  | [] => []
  | c :: path => if c = ':' then [c] else c :: getDrive path

/-- The variables of the loop of `parse_path`. -/
structure PathState where
  sections : List Str
  current : Str
  hasDrive : Bool

/-- What is done at the end of a section; `none` is `return ""`. -/
def endSection (s : PathState) : Option PathState :=
  if s.current = ['.', '.'] then
    if 1 < s.sections.length then some { s with sections := s.sections.dropLast, current := [] }
    else none
  else if s.current = ['.'] then some { s with current := [] }
  else if s.current ≠ [] then
    some { s with sections := s.sections ++ [s.current], current := [] }
  else some s

/-- One round of the loop of `parse_path`. -/
def parsePathChar (s : PathState) (c : Char) : Option PathState :=
  if c = ':' then
    if !s.hasDrive && s.current != [] then
      some ⟨s.sections ++ [s.current ++ [':']], [], true⟩
    else none
  else if c = '/' then endSection s
  else some { s with current := s.current ++ [c] }

/-- The sections are put together. The slash behind a drive stays if there is nothing else. -/
def joinSections (sections : List Str) : Str :=
  let final := (sections.map (· ++ ['/'])).flatten
  if 1 < sections.length then final.dropLast else final

/-- `parse_path`, where `cwd` is the current directory. -/
def parsePath (cwd path : Str) : Str :=
  let path :=
    if isAbsolute path then path
    else if path.head? = some '/' then getDrive cwd ++ path
    else cwd ++ '/' :: path
  ((path.foldlM parsePathChar ⟨[], [], false⟩).bind endSection).elim [] fun s =>
    joinSections s.sections

end Cmd
