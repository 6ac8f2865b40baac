import Montage.Compile.Segment
import Montage.Proofs.Drafting

/-!
# The operations of a segment

Which operations the nodes of a cut have. An operation is steady when it leaves every second of
what it reads in its place: frames are scaled, volumes are set and the ends fade, but nothing is
cut off, turned round, added or joined. Main statements: `videoOps_steady` says that a picture has
only steady operations, and `audioOps_split` that a sound has besides them only those that move it
by its offset.
-/

namespace Montage

/-- The whole number that a parameter of an operation is. -/
def Op.whole? (op : Op) (key : String) : Option Int :=
  match op.param (some key) .null with
  | .int n => some n
  | _ => none

/-- The operations that change how long a stream is, or the order of its seconds. -/
def Op.movingNames : List String :=
  ["atrim", "areverse", "apad", "amix", "concat", "xfade", "acrossfade"]

/-- Whether an operation leaves every second in its place. -/
def Op.isSteady (op : Op) : Bool :=
  !movingNames.contains op.name

/-- The operations that move a sound by its offset. -/
def offsetChain (offset : Int) : List Op :=
  if offset < 0 then
    [.of "atrim" [] [("start", .int offset.natAbs)], resetTimestamps "asetpts"]
  else if 0 < offset then
    [.of "areverse" [] [], .of "apad" [] [("pad_dur", .int offset)], .of "areverse" [] []]
  else []

/-! ## Effects -/

theorem Effect.offsetOps_int (offset : Int) :
    offsetOps (.int offset) = .ok (offsetChain offset) := by
  unfold offsetOps offsetChain
  rw [Value.number_int]
  show (if _ then _ else _) = _
  simp only [Number.lt_whole_iff]
  split
  · rfl
  · split <;> rfl

theorem Effect.fadeOps_steady {kind : StreamKind} {duration length direction : Value}
    {ops : List Op} (given : fadeOps kind duration length direction = .ok ops) :
    ∀ op ∈ ops, op.isSteady := by
  obtain ⟨nothing, _, given⟩ := except_bind_eq_ok_iff.mp given
  split at given
  · obtain rfl := except_pure_eq_ok_iff.mp given
    simp
  · obtain ⟨start, rfl⟩ : ∃ start, ops = [.of (if kind = .video then "fade" else "afade") []
        [("t", direction), ("st", start), ("d", length)]] := by
      dsimp only at given
      split at given
      · exact ⟨_, (except_pure_eq_ok_iff.mp given).symm⟩
      · obtain ⟨_, _, given⟩ := except_bind_eq_ok_iff.mp given
        obtain ⟨start, _, given⟩ := except_bind_eq_ok_iff.mp given
        exact ⟨start, (except_pure_eq_ok_iff.mp given).symm⟩
    intro op present
    rw [List.mem_singleton.mp present]
    split <;> rfl

theorem Effect.letterboxOps_steady (width height : Value) :
    ∀ op ∈ letterboxOps width height, op.isSteady := by
  intro op present
  simp only [letterboxOps, List.mem_cons, List.not_mem_nil, or_false] at present
  rcases present with rfl | rfl | rfl <;> rfl

namespace EffectRegistry

theorem standard_apply_fade (context : EffectContext) :
    standard.apply "fade" context = liftM (Effect.fade.ops context) :=
  rfl

theorem standard_apply_letterbox (duration width height : Value) :
    standard.apply "letterbox" ⟨.video, duration, [("width", width), ("height", height)]⟩ =
      .ok (Effect.letterboxOps width height) :=
  rfl

theorem standard_apply_audioOffset (duration : Value) (offset : Int) :
    standard.apply "audio_offset" ⟨.audio, duration, [("offset", .int offset)]⟩ =
      .ok (offsetChain offset) := by
  show liftM (Effect.offsetOps (.int offset)) = _
  rw [Effect.offsetOps_int]
  rfl

theorem standard_apply_volume (duration volume : Value) :
    standard.apply "volume" ⟨.audio, duration, [("volume", volume)]⟩ =
      .ok (Effect.volumeOps volume) :=
  rfl

end EffectRegistry

/-! ## Segments -/

namespace SegmentStyle

variable {style : SegmentStyle} {cut : CutInputs} {total : Int} {ops : List Op}

theorem edgeFade_steady {kind : StreamKind} {duration length : Value} {direction : String}
    (given : edgeFade kind duration length direction = .ok ops) : ∀ op ∈ ops, op.isSteady := by
  unfold edgeFade at given
  rw [EffectRegistry.standard_apply_fade, liftM_defect_eq_ok_iff] at given
  exact Effect.fadeOps_steady given

theorem edgeFades_eq (style : SegmentStyle) (kind : StreamKind) (duration : Value)
    (index total : Int) :
    style.edgeFades kind duration index total =
      (if index = 0 then edgeFade kind duration style.fade.fadeIn "in" else pure []) >>=
        fun first =>
          (if index = total - 1 then edgeFade kind duration style.fade.fadeOut "out"
            else pure []) >>= fun last => pure (first ++ last) := by
  unfold edgeFades
  split
  · split <;> rfl
  · split <;> rfl

theorem edgeFades_steady {kind : StreamKind} {duration : Value} {index : Int}
    (given : style.edgeFades kind duration index total = .ok ops) : ∀ op ∈ ops, op.isSteady := by
  rw [edgeFades_eq] at given
  obtain ⟨first, firstGiven, given⟩ := except_bind_eq_ok_iff.mp given
  obtain ⟨last, lastGiven, given⟩ := except_bind_eq_ok_iff.mp given
  obtain rfl := except_pure_eq_ok_iff.mp given
  intro op present
  rcases List.mem_append.mp present with inFirst | inLast
  · split at firstGiven
    · exact edgeFade_steady firstGiven op inFirst
    · rw [← except_pure_eq_ok_iff.mp firstGiven] at inFirst
      cases inFirst
  · split at lastGiven
    · exact edgeFade_steady lastGiven op inLast
    · rw [← except_pure_eq_ok_iff.mp lastGiven] at inLast
      cases inLast

theorem frameOps_steady {duration : Value} (given : style.frameOps duration = .ok ops) :
    ∀ op ∈ ops, op.isSteady := by
  unfold frameOps at given
  split at given
  · cases given
    simp
  · rw [EffectRegistry.standard_apply_letterbox] at given
    cases given
    exact Effect.letterboxOps_steady _ _
  · cases given

/-- The picture of a cut has only steady operations. -/
theorem videoOps_steady (given : style.videoOps cut total = .ok ops) :
    ∀ op ∈ ops, op.isSteady := by
  obtain ⟨frame, frameGiven, given⟩ := except_bind_eq_ok_iff.mp given
  obtain ⟨fades, fadesGiven, given⟩ := except_bind_eq_ok_iff.mp given
  obtain rfl := except_pure_eq_ok_iff.mp given
  intro op present
  rcases List.mem_cons.mp present with rfl | later
  · decide
  · rcases List.mem_append.mp later with inFrame | inFades
    · exact frameOps_steady frameGiven op inFrame
    · exact edgeFades_steady fadesGiven op inFades

/-- A sound has, besides steady operations, only those that move it by its offset. -/
theorem audioOps_split {offset : Int} {volume : Value}
    (given : style.audioOps cut total offset volume = .ok ops) :
    ∃ more, ops = resetTimestamps "asetpts" :: (offsetChain offset ++ more) ∧
      ∀ op ∈ more, op.isSteady := by
  obtain ⟨shift, shiftGiven, given⟩ := except_bind_eq_ok_iff.mp given
  obtain ⟨gain, gainGiven, given⟩ := except_bind_eq_ok_iff.mp given
  obtain ⟨fades, fadesGiven, given⟩ := except_bind_eq_ok_iff.mp given
  obtain rfl := except_pure_eq_ok_iff.mp given
  rw [EffectRegistry.standard_apply_audioOffset] at shiftGiven
  rw [EffectRegistry.standard_apply_volume] at gainGiven
  cases shiftGiven
  cases gainGiven
  refine ⟨Effect.volumeOps volume ++ fades, by rw [List.append_assoc], ?_⟩
  intro op present
  rcases List.mem_append.mp present with inGain | inFades
  · rw [List.mem_singleton.mp inGain]
    rfl
  · exact edgeFades_steady fadesGiven op inFades

end SegmentStyle

end Montage
