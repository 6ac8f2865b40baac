/-!
# Defects

The causes for which an operation on unchecked values gives no result. They are faults of the
data's form, not of its meaning as an edit list.
-/

namespace Montage

/-- What can be wrong with the values an operation is given. -/
inductive Defect where
  /-- A value of a kind that the operation does not take. -/
  | wrongKind
  /-- A member was asked of a value that has no members. -/
  | noMembers
  /-- A member that is not there. -/
  | missingMember
  /-- A position outside a list. -/
  | outOfBounds
  /-- A value of the right kind that the operation cannot use. -/
  | badValue
  /-- A number too large for the operation. -/
  | overflow
deriving DecidableEq, Repr

def Defect.description : Defect → String
  | .wrongKind => "valor de tipo inesperado"
  | .noMembers => "valor sem membros"
  | .missingMember => "membro ausente"
  | .outOfBounds => "posição fora da lista"
  | .badValue => "valor inválido"
  | .overflow => "número grande demais"

end Montage
