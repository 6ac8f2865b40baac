import Montage.EditError
import Montage.SessionError
import Montage.StoreError

/-!
# Failures

Every way in which an operation of the library can end without a result. Defects are failures of
the data's form; the others carry a message of their own.
-/

namespace Montage

/-- Why an effect is not applied. -/
inductive EffectError where
  | notRegistered (name : String)
  | wrongStream (name kind : String)
deriving DecidableEq

def EffectError.message : EffectError → String
  | .notRegistered name => "Efeito não registrado: " ++ name
  | .wrongStream name kind => "Efeito " ++ name ++ " não se aplica a " ++ kind

/-- How the encoder failed: it ran too long, or it ended with a code other than zero. -/
inductive EncoderError where
  | timedOut (limit : Value)
  | exited (code : Int) (report : String)
deriving DecidableEq

/-- What the encoder wrote about its failure, or its code if it wrote nothing. -/
def EncoderError.message : EncoderError → String
  | .timedOut limit => "Comando FFmpeg excedeu timeout de " ++ limit.bare ++ "s"
  | .exited code report =>
    if report = "" then "FFmpeg retornou código " ++ decimalText code else report

def EncoderError.code? : EncoderError → Option Int
  | .timedOut _ => none
  | .exited code _ => some code

inductive Failure where
  | defect (cause : Defect)
  | edit (cause : EditError)
  | effect (cause : EffectError)
  | encoder (cause : EncoderError)
  | store (cause : StoreError)
  /-- Some settings have values that they do not take. -/
  | settings (names : List String)
  /-- The rules for reading variables cannot be followed. -/
  | variableRules
  | session (cause : SessionError)
  /-- Progress was asked of a total that is not positive. -/
  | noTotal
deriving DecidableEq

/-- The message that belongs to a failure; defects have none of their own. -/
def Failure.message? : Failure → Option String
  | .defect _ => none
  | .edit cause => some cause.message
  | .effect cause => some cause.message
  | .encoder cause => some cause.message
  | .store cause => some cause.message
  | .settings names => some ("Configurações inválidas: " ++ ", ".intercalate names)
  | .variableRules => some "Regras de leitura das variáveis inválidas"
  | .session cause => some cause.message
  | .noTotal => some "Duração total deve ser positiva"

/-- What is told of a failure. -/
def Failure.message (failure : Failure) : String :=
  match failure with
  | .defect cause => cause.description
  | _ => failure.message?.getD ""

namespace Failure

/-- A failure whose message names a value. A value that cannot be spelled leaves no message, which
is a defect. -/
def naming (value : Value) (failure : Failure) : Failure :=
  if value.isSpellable then failure else .defect .badValue

theorem naming_of_overlong {value : Value} (long : value.Overlong) (failure : Failure) :
    naming value failure = .defect .badValue := by
  rw [naming, Value.isSpellable_eq_false_iff.mpr long]
  rfl

theorem naming_of_not_overlong {value : Value} (short : ¬ value.Overlong) (failure : Failure) :
    naming value failure = failure := by
  rw [naming, if_pos (Value.isSpellable_iff.mpr short)]

/-- A failure is told by its message, or the value that it names is too long. -/
theorem naming_cases (value : Value) (failure : Failure) :
    naming value failure = failure ∨
      value.Overlong ∧ naming value failure = .defect .badValue := by
  by_cases long : value.Overlong
  · exact .inr ⟨long, naming_of_overlong long failure⟩
  · exact .inl (naming_of_not_overlong long failure)

/-- Whether a failure is one of the file system: a path that leads nowhere, or a media file that is
missing. -/
def isOfFiles : Failure → Bool
  | .store (.file .badName _) | .store (.file .loneSurrogate _) => false
  | .store (.file _ _) | .edit (.missingSource ..) => true
  | _ => false

/-- Whether a failure is that of a value of the right kind that cannot be used. A document that is
too deep is none. -/
def isOfValue : Failure → Bool
  | .store (.file .badName _) | .store (.file .loneSurrogate _) => true
  | .store .notText | .store .notStorable => true
  | .store (.unreadable .malformed) | .store (.unreadable (.tooManyDigits _)) => true
  | .defect .badValue | .edit (.time _) | .edit (.frameSize _) => true
  | .effect (.wrongStream ..) | .settings _ | .variableRules | .noTotal => true
  | _ => false

/-- Whether a failure is that of something which is asked of a value, or of a script, and which it
does not have. -/
def isOfMember : Failure → Bool
  | .defect .noMembers | .store (.noTransform _) => true
  | _ => false

end Failure

instance : MonadLift (Except Defect) (Except Failure) where
  monadLift := Except.mapError Failure.defect

instance {σ : Type} : MonadLift (Except Failure) (EStateM Failure σ) where
  monadLift
    | .ok value => pure value
    | .error failure => throw failure

/-- Refuses an edit list. -/
def reject {α : Type} (cause : EditError) : Except Failure α :=
  .error (.edit cause)

/-- Refuses an edit list by a message that names a value. -/
def rejectNaming {α : Type} (value : Value) (cause : EditError) : Except Failure α :=
  .error (.naming value (.edit cause))

end Montage
