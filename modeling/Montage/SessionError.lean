/-!
# What ends a session early

A session ends before it has anything to load when its arguments are not understood, or when a
question has no answer that is an option.
-/

namespace Montage

/-- Why arguments give no options. -/
inductive OptionsStop where
  | help
  | usage
deriving DecidableEq, Repr

/-- Why a question gives no choice. -/
inductive ChoiceError where
  | noOptions (prompt : String)
  | notAnOption (answer : String)
  /-- The input ended before the answer. -/
  | noAnswer
deriving DecidableEq, Repr

inductive SessionError where
  | options (cause : OptionsStop)
  | choice (cause : ChoiceError)
deriving DecidableEq, Repr

def OptionsStop.message : OptionsStop → String
  | .help => "Renderiza um episódio a partir da EDL (config.json)."
  | .usage => "Argumentos inválidos; veja --help"

def ChoiceError.message : ChoiceError → String
  | .noOptions prompt => "ERRO > Nenhuma opção disponível para: " ++ prompt
  | .notAnOption answer => "ERRO > Opção inválida: " ++ answer
  | .noAnswer => "ERRO > Fim da entrada"

def SessionError.message : SessionError → String
  | .options cause => cause.message
  | .choice cause => cause.message

end Montage
