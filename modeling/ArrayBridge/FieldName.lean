import ArrayBridge.Error

/-!
Field names made from column names.
-/
namespace ArrayBridge.FieldName

/-- Only ASCII letters and digits are kept; any other character becomes `_`. -/
def sanitize (name : String) : String :=
  String.ofList (name.toList.map fun c => if c.isAlphanum then c else '_')

/-- The suffixes that are tried. -/
def maxSuffix : Nat := 99

def suffixed (name : String) (k : Nat) : String := name ++ "_" ++ toString k

/-- The first suffixed form of the name that is not taken. -/
def free? (taken : List String) (name : String) : Option String :=
  ((List.range' 1 maxSuffix).map (suffixed name)).find? (· ∉ taken)

/-- `names` with later duplicates renamed, after `done`, which stands already. A name that occurs in
`done` takes a suffix that is free among all names as they stand; without one it stays, with a warning. -/
def resolveAfter (done : List String) : List String → List String × List Warning
  | [] => (done, [])
  | n :: rest =>
    if n ∈ done then
      match free? (done ++ n :: rest) n with
      | some u => resolveAfter (done ++ [u]) rest
      | none =>
        let r := resolveAfter (done ++ [n]) rest
        (r.1, .duplicateFieldName n :: r.2)
    else resolveAfter (done ++ [n]) rest

def resolve (names : List String) : List String × List Warning := resolveAfter [] names

end ArrayBridge.FieldName
