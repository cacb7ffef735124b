/-!
# Entries in insertion order

A list of keys with their values serves as a map that remembers the order in
which its keys were first put.  Putting a key again replaces its value at the
place the key already has.
-/

namespace IndexAccess
namespace Entries

variable {κ α : Type}

/-- The entries with the value of a key replaced at its place, or with the key
added at the end. -/
def put [BEq κ] (key : κ) (value : α) : List (κ × α) → List (κ × α)
  | [] => [(key, value)]
  | (k, v) :: rest =>
    if k == key then (k, value) :: rest else (k, v) :: put key value rest

/-- The entries that a sequence of puts leaves. -/
def ofList [BEq κ] (puts : List (κ × α)) : List (κ × α) :=
  puts.foldl (fun entries entry => put entry.1 entry.2 entries) []

def get? [BEq κ] : List (κ × α) → κ → Option α
  | [], _ => none
  | (k, v) :: rest, key => if k == key then some v else get? rest key

def keys (entries : List (κ × α)) : List κ :=
  entries.map (·.1)

@[simp] theorem keys_nil : keys ([] : List (κ × α)) = [] := rfl

@[simp] theorem keys_cons (entry : κ × α) (rest : List (κ × α)) :
    keys (entry :: rest) = entry.1 :: keys rest := rfl

theorem keys_put [BEq κ] [LawfulBEq κ] (key : κ) (value : α)
    (entries : List (κ × α)) :
    keys (put key value entries) =
      if key ∈ keys entries then keys entries else keys entries ++ [key] := by
  induction entries with
  | nil => simp [put]
  | cons entry rest ih =>
    obtain ⟨k, v⟩ := entry
    by_cases h : k = key
    · simp [put, h]
    · simp only [put, beq_iff_eq, h, if_false, keys_cons, ih, List.mem_cons,
        Ne.symm h, false_or]
      split <;> simp

@[simp] theorem get?_put_self [BEq κ] [LawfulBEq κ] (key : κ) (value : α)
    (entries : List (κ × α)) :
    get? (put key value entries) key = some value := by
  induction entries with
  | nil => simp [put, get?]
  | cons entry rest ih =>
    obtain ⟨k, v⟩ := entry
    by_cases h : k = key <;> simp [put, get?, h, ih]

theorem get?_put_of_ne [BEq κ] [LawfulBEq κ] {key other : κ} (value : α)
    (entries : List (κ × α)) (hne : other ≠ key) :
    get? (put key value entries) other = get? entries other := by
  induction entries with
  | nil => simp [put, get?, hne.symm]
  | cons entry rest ih =>
    obtain ⟨k, v⟩ := entry
    by_cases h : k = key
    · subst h
      simp [put, get?, hne.symm]
    · by_cases ho : k = other
      · subst ho
        simp [put, get?, h]
      · simp [put, get?, h, ho, ih]

end Entries
end IndexAccess
