/-!
# Slash-separated paths

Paths are texts whose components are divided by `/`. Everything here is lexical: no file is looked at.
-/

namespace TypedScript.Path

/-- The parts of a text between separators. -/
def split (sep : Char) (s : String) : List String := (s.toList.splitOn sep).map String.ofList

/-- Whether the path starts at the root. -/
def isAbsolute (path : String) : Bool :=
  path.startsWith "/"

/-- The non-empty components of a path. -/
def components (path : String) : List String :=
  ((split '/' path).filter (· ≠ ""))

/-- The components that remain, last first, when `.` is dropped and `..` takes back the component before it. An
absolute path stays below its root; a relative one keeps the `..` it cannot resolve. -/
def reduceComponents (rooted : Bool) : List String → List String → List String
  | kept, [] => kept
  | kept, "." :: rest => reduceComponents rooted kept rest
  | kept, ".." :: rest =>
    match kept with
    | [] => reduceComponents rooted (if rooted then [] else [".."]) rest
    | ".." :: _ => reduceComponents rooted (".." :: kept) rest
    | _ :: outer => reduceComponents rooted outer rest
  | kept, c :: rest => reduceComponents rooted (c :: kept) rest

/-- The shortest path that names the same place as `path` does, judged by its text alone. -/
def clean (path : String) : String :=
  let rooted := isAbsolute path
  let body := "/".intercalate (reduceComponents rooted [] (components path)).reverse
  if rooted then "/" ++ body else if body = "" then "." else body

/-- Joins components, leaving out empty ones, and cleans the outcome. -/
def join (parts : List String) : String :=
  match parts.filter (· ≠ "") with
  | [] => ""
  | kept => clean ("/".intercalate kept)

/-- The last component: `.` for the empty path, `/` for a path of slashes only. -/
def base (path : String) : String :=
  if path = "" then "."
  else
    match (components path).getLast? with
    | some last => last
    | none => "/"

/-- All but the last component, cleaned. -/
def dir (path : String) : String :=
  match (split '/' path).reverse with
  | [] | [_] => "."
  | _ :: rest => clean ("/".intercalate rest.reverse ++ "/")

/-- The part of the last component from its last dot on, dot included; empty if there is none. -/
def extension (path : String) : String :=
  let last := (split '/' path).getLastD ""
  match (split '.' last).reverse with
  | [] | [_] => ""
  | ext :: _ => "." ++ ext

/-- The path without its extension. -/
def withoutExtension (path : String) : String :=
  (path.dropEnd (extension path).length).toString

/-- The path from the root, a relative one being taken from the working directory. -/
def absolute (workDir path : String) : String :=
  if isAbsolute path then clean path else join [workDir, path]

/-- Why `relative` found no path. -/
inductive RelativeError where
  /-- One path is absolute and the other is not, or the base leaves the common part through `..`. -/
  | unreachable (target base : String)

/-- The path that leads from `base` to `target`, both taken lexically. -/
def relative (base target : String) : Except RelativeError String :=
  let b := clean base
  let t := clean target
  let fail := Except.error (.unreachable target base)
  if t = b then .ok "."
  else
    let b' := if b = "." then "" else b
    if isAbsolute b' ≠ isAbsolute t then fail
    else
      let bs := components b'
      let ts := components t
      let common := ((bs.zip ts).takeWhile fun p => p.1 = p.2).length
      let up := bs.drop common
      if up.contains ".." then fail
      else .ok ("/".intercalate (List.replicate up.length ".." ++ ts.drop common))

end TypedScript.Path
