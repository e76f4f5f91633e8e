/-! Everything that can be reached by following steps within a finite domain. -/
namespace Flowchart

/-- A domain gets shorter by what is found in it. -/
theorem length_erase_lt_of_find? {domain pending : List String} {s : String}
    (found : pending.find? domain.contains = some s) : (domain.erase s).length < domain.length := by
  have inside : s ∈ domain := by simpa using List.find?_some found
  have := List.length_erase_of_mem inside
  have := List.length_pos_of_mem inside
  omega

/-- What can be reached from `pending` by the steps of `next` without leaving `domain`. Each item is
taken out of the domain when it is reached, so cycles come to an end. -/
def reach (next : String → List String) (domain pending : List String) : List String :=
  match found : pending.find? domain.contains with
  | none => []
  | some s =>
    have := length_erase_lt_of_find? found
    s :: reach next (domain.erase s) (next s ++ pending)
termination_by domain.length

end Flowchart
