import Montage.Document.Spelling

/-!
# What can be wrong with an edit list

Each cause carries what its message names. The messages are those shown to the user.
-/

namespace Montage

/-- Why a time is not accepted. -/
inductive TimeFault where
  | notText (given : Value)
  | malformed (text : String)
  | outOfRange (text : String)
  | truthValue (given : Bool)
  | badMark (given : Value)
deriving DecidableEq

def TimeFault.message : TimeFault → String
  | .notText given => "Timestamp deve ser texto HH:MM:SS, recebido " ++ given.spelled
  | .malformed text => "Timestamp deve ser HH:MM:SS: " ++ Text.quoted text
  | .outOfRange text => "Minutos/segundos fora do intervalo 00-59: " ++ Text.quoted text
  | .truthValue given => "Timestamp inválido: " ++ Value.spelledBool given
  | .badMark given => "Marca de progresso inválida: " ++ given.spelled

/-- Why a cut is not accepted. -/
inductive CutFault where
  | noVideo
  | endsBeforeStart
  | negativeVolume
  | trackWithoutId (track : Nat)
  | negativeTrackVolume (id : Value)
  | offsetTooLong (id : Value)
deriving DecidableEq

def CutFault.message : CutFault → String
  | .noVideo => "video.id ausente"
  | .endsBeforeStart => "fim deve ser depois do início"
  | .negativeVolume => "volume do vídeo não pode ser negativo"
  | .trackWithoutId track => "trilha de áudio " ++ decimalText track ++ " sem id"
  | .negativeTrackVolume id => "volume da trilha " ++ id.bare ++ " não pode ser negativo"
  | .offsetTooLong id => "offset de " ++ id.bare ++ " maior que a duração do corte"

/-- The three lengths of an edit list that are checked before compiling. -/
inductive FadeField where
  | fadeIn
  | fadeOut
  | crossfade
deriving DecidableEq

def FadeField.name : FadeField → String
  | .fadeIn => "in"
  | .fadeOut => "out"
  | .crossfade => "crossfade"

/-- Why the fade lengths are not accepted. -/
inductive FadeFault where
  | notANumber (field : FadeField) (given : Value)
  | negative (field : FadeField) (given : Value)
  | nothingLeft (crossfade : Value) (total : Value)
deriving DecidableEq

def FadeFault.message : FadeFault → String
  | .notANumber field given =>
    "fade_duration." ++ field.name ++ " deve ser um número: " ++ given.spelled
  | .negative field given =>
    "fade_duration." ++ field.name ++ " não pode ser negativo: " ++ given.bare
  | .nothingLeft crossfade total =>
    "Crossfade de " ++ crossfade.bare ++ "s consome toda a timeline (" ++ total.bare ++ "s)"

/-- The part that a media file plays in a cut. -/
inductive SourceRole where
  | video
  | audio
deriving DecidableEq

def SourceRole.label : SourceRole → String
  | .video => "vídeo"
  | .audio => "áudio"

/-- Why an edit list cannot be compiled. -/
inductive EditError where
  | time (fault : TimeFault)
  | cut (index : Nat) (fault : CutFault)
  | fade (fault : FadeFault)
  | missingSource (index : Nat) (role : SourceRole) (id : Value)
  | frameSize (given : Value)
  | noCuts
  | nothingToMix (index : Int)
  | nothingToJoin
deriving DecidableEq

def EditError.message : EditError → String
  | .time fault => fault.message
  | .cut index fault => "Corte " ++ decimalText index ++ ": " ++ fault.message
  | .fade fault => fault.message
  | .missingSource index role id =>
    "Corte " ++ decimalText index ++ ": " ++ role.label ++ " não encontrado → " ++ id.bare
  | .frameSize given => "Resolução inválida: " ++ given.spelled
  | .noCuts => "Projeto precisa de pelo menos um corte"
  | .nothingToMix index =>
    "Corte " ++ decimalText index ++ " sem nenhum nó de áudio para mixar"
  | .nothingToJoin => "Nenhum segmento para compor"

end Montage
