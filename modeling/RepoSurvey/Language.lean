/-!
Languages: the tag of each, the file name extensions that stand for them, and the way in which
imports are read from a file of each.
-/

namespace RepoSurvey

/-- The language of a file, in the order in which counts are listed. -/
inductive Language where
  | python | javaScript | typeScript | java | go | cpp | c | cSharp
  | code
  deriving Repr, DecidableEq, Inhabited

namespace Language

/-- Every language, in order. -/
def all : List Language :=
  [python, javaScript, typeScript, java, go, cpp, c, cSharp, code]

def tag : Language → String
  | python => "python"
  | javaScript => "javascript"
  | typeScript => "typescript"
  | java => "java"
  | go => "go"
  | cpp => "cpp"
  | c => "c"
  | cSharp => "csharp"
  | code => "code"

def ofTag? (s : String) : Option Language :=
  all.find? fun l => l.tag == s

/-- The language that a tag stands for, or what is said of a word that is no tag. -/
def read (word : String) : Except String Language :=
  match ofTag? word with
  | some l => .ok l
  | none =>
    let tags := ", ".intercalate (all.map fun l => s!"`{l.tag}`")
    .error s!"unknown variant `{word}`, expected one of {tags}"

/-- The place of a language in the order of `all`. -/
def rank (l : Language) : Nat := all.idxOf l

/-- An extension in its usual form: no dots before it, and the letters a to z small. -/
def normalExtension (extension : String) : List Char :=
  (extension.toList.dropWhile (· == '.')).map Char.toLower

/-- The extensions that make a file a source file. -/
def allowList : List (List Char) :=
  [['p', 'y'], ['j', 's'], ['t', 's'], ['g', 'o'], ['j', 'a', 'v', 'a'], ['c', 'p', 'p'], ['c'],
    ['c', 's']]

/-- The language of files with an extension, which may be written with its dot. -/
def ofExtension (extension : String) : Language :=
  match normalExtension extension with
  | ['p', 'y'] => python
  | ['j', 's'] => javaScript
  | ['t', 's'] => typeScript
  | ['j', 'a', 'v', 'a'] => java
  | ['g', 'o'] => go
  | ['c', 'p', 'p'] => cpp
  | ['c'] => c
  | ['c', 's'] => cSharp
  | _ => code

def isSourceExtension (extension : String) : Bool :=
  allowList.contains (normalExtension extension)

/-- The extensions of source files are those that stand for a language of their own. -/
theorem isSourceExtension_iff {extension : String} :
    isSourceExtension extension = true ↔ ofExtension extension ≠ code := by
  unfold isSourceExtension ofExtension
  split
  case h_9 hpython hjavaScript htypeScript hjava hgo hcpp hc hcSharp =>
    refine iff_of_false (fun h => ?_) (not_not_intro rfl)
    simp only [allowList, List.contains_eq_mem, decide_eq_true_eq, List.mem_cons, List.not_mem_nil,
      or_false] at h
    rcases h with h | h | h | h | h | h | h | h
    · exact hpython h
    · exact hjavaScript h
    · exact htypeScript h
    · exact hgo h
    · exact hjava h
    · exact hcpp h
    · exact hc h
    · exact hcSharp h
  all_goals
    rename_i heq
    rw [heq]
    exact iff_of_true rfl nofun

end Language

/-- How imports are read from a file. -/
inductive Strategy where
  | structural
  | pattern
  | none
  deriving Repr, DecidableEq

def Language.strategy : Language → Strategy
  | .python => .structural
  | .javaScript | .typeScript => .pattern
  | _ => .none

end RepoSurvey
