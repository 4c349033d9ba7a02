/-!
# Dictionaries

Entries by name, in ascending order of the names and each name once. The order is the one listings
show.
-/

namespace Terrain

/-- Entries in ascending order of their names. -/
abbrev Dictionary (α : Type) := List (String × α)

namespace Dictionary

variable {α β : Type}

/-- Puts an entry in its place; one of the same name is replaced. -/
def insert (name : String) (value : α) : Dictionary α → Dictionary α
  | [] => [(name, value)]
  | (other, old) :: rest =>
    if name < other then (name, value) :: (other, old) :: rest
    else if name = other then (name, value) :: rest
    else (other, old) :: insert name value rest

/-- The entries of a list, later ones replacing earlier ones. -/
def ofList (entries : List (String × α)) : Dictionary α :=
  entries.foldl (fun dictionary (name, value) => insert name value dictionary) []

/-- The value of a name. -/
def get? (dictionary : Dictionary α) (name : String) : Option α := dictionary.lookup name

def contains (dictionary : Dictionary α) (name : String) : Bool := (dictionary.get? name).isSome

/-- Changes the value of a name, if it has one. -/
def modify (dictionary : Dictionary α) (name : String) (f : α → α) : Dictionary α :=
  dictionary.map fun (other, value) => if other = name then (other, f value) else (other, value)

end Dictionary

end Terrain
