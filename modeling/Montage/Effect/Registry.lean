import Montage.Effect

/-!
# The effect registry

Effects are registered under a name, with a description and the kind of stream they are for.
Registering a name again replaces what it stands for and keeps its place.
-/

namespace Montage

/-- The kind of stream an effect is for is `audio`, `video` or `both`. -/
structure EffectDescriptor where
  name : String
  params : List (String × String)
  target : String
  description : String := ""
deriving DecidableEq

/-- The entries in the order of their first registration. A name may be described without an effect
behind it. -/
structure EffectRegistry where
  entries : List (EffectDescriptor × Option Effect) := []
deriving DecidableEq

namespace EffectRegistry

def empty : EffectRegistry := {}

def find? (registry : EffectRegistry) (name : String) :
    Option (EffectDescriptor × Option Effect) :=
  registry.entries.find? fun entry => entry.1.name == name

def register (registry : EffectRegistry) (descriptor : EffectDescriptor) (effect : Option Effect) :
    EffectRegistry :=
  if registry.entries.any fun entry => entry.1.name == descriptor.name then
    ⟨registry.entries.map fun entry =>
      if entry.1.name == descriptor.name then (descriptor, effect) else entry⟩
  else ⟨registry.entries ++ [(descriptor, effect)]⟩

def effect? (registry : EffectRegistry) (name : String) : Option Effect :=
  (registry.find? name).bind (·.2)

def descriptor? (registry : EffectRegistry) (name : String) : Option EffectDescriptor :=
  (registry.find? name).map (·.1)

def descriptors (registry : EffectRegistry) : List EffectDescriptor :=
  registry.entries.map (·.1)

/-- The operations of a registered effect; it must be for the kind of stream in the context. -/
def apply (registry : EffectRegistry) (name : String) (context : EffectContext) :
    Except Failure (List Op) :=
  match registry.find? name with
  | some (descriptor, some effect) =>
    if descriptor.target = "both" ∨ descriptor.target = context.kind.name then
      liftM (effect.ops context)
    else .error (.effect (.wrongStream name context.kind.name))
  | _ => .error (.effect (.notRegistered name))

/-- The effects that segments are made of. -/
def standard : EffectRegistry := ⟨[
  (⟨"audio_offset", [("offset", "int")], "audio",
    "Adianta (offset negativo) ou atrasa (offset positivo) a trilha"⟩, some .audioOffset),
  (⟨"letterbox", [("width", "int>0"), ("height", "int>0")], "video",
    "Normaliza todos os cortes para o mesmo tamanho de quadro"⟩, some .letterbox),
  (⟨"volume", [("volume", "float>=0")], "audio",
    "Multiplica a amplitude da trilha (1.0 = original)"⟩, some .volume),
  (⟨"fade", [("length", "float>=0"), ("inout", "'in'|'out'")], "both",
    "Aplica fade in no início ou fade out no fim do segmento"⟩, some .fade)]⟩

end EffectRegistry

end Montage
