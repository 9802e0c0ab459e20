import BranchGate.Text

/-! Named values in the order in which their names first came. -/
namespace BranchGate

abbrev Fields (α : Type) := List (Text × α)

namespace Fields

variable {α : Type}

def get? (fields : Fields α) (name : Text) : Option α :=
  (fields.find? fun f => f.1 == name).map (·.2)

def has (fields : Fields α) (name : Text) : Bool := fields.any fun f => f.1 == name

def names (fields : Fields α) : List Text := fields.map (·.1)

/-- A known name keeps its place and takes the new value; a new name comes last. -/
def put : Fields α → Text → α → Fields α
  | [], name, value => [(name, value)]
  | (n, v) :: rest, name, value =>
    if n = name then (n, value) :: rest else (n, v) :: put rest name value

/-- A known name keeps its value. -/
def putNew (fields : Fields α) (name : Text) (value : α) : Fields α :=
  if fields.has name then fields else fields ++ [(name, value)]

def putAll (fields more : Fields α) : Fields α :=
  more.foldl (fun acc f => acc.put f.1 f.2) fields

def putAllNew (fields more : Fields α) : Fields α :=
  more.foldl (fun acc f => acc.putNew f.1 f.2) fields

/-- The fields that a list of pairs denotes when a later value replaces an earlier one. -/
def ofPairs (pairs : List (Text × α)) : Fields α := putAll [] pairs

theorem get?_put (fields : Fields α) (name other : Text) (value : α) :
    (fields.put name value).get? other =
      if name = other then some value else fields.get? other := by
  induction fields with
  | nil => by_cases h : name = other <;> simp [put, get?, h]
  | cons f rest ih =>
    obtain ⟨n, v⟩ := f
    simp only [get?] at ih
    by_cases h : n = name
    · subst h
      by_cases h' : n = other <;> simp [put, get?, h']
    · by_cases h' : n = other
      · subst h'
        have : ¬ name = n := fun e => h e.symm
        simp [put, get?, h, this]
      · simp [put, get?, h, h', ih]

theorem names_put (fields : Fields α) (name : Text) (value : α) :
    (fields.put name value).names =
      if name ∈ fields.names then fields.names else fields.names ++ [name] := by
  induction fields with
  | nil => simp [put, names]
  | cons f rest ih =>
    obtain ⟨n, v⟩ := f
    simp only [names] at ih
    by_cases h : n = name
    · simp [put, names, h]
    · have h' : ¬ name = n := fun e => h e.symm
      by_cases hm : name ∈ rest.map (·.1) <;> simp_all [put, names]

end Fields
end BranchGate
