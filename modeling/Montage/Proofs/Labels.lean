import Mathlib.Data.List.Nodup
import Montage.Filtergraph.Graph

/-!
# Labels tell nodes apart

The label of a node is made of the letters of its role and of decimal numerals. A numeral has
neither letters nor an underscore in it, so the role can be read off a label, and then the index
and the track. Main statements: `label_eq_iff` says that two nodes have the same label exactly
when they have the same key, and `labels_nodup` that nodes with different keys have different
labels.
-/

namespace Montage

/-! ## Decimal numerals -/

theorem toDigits_injective {m n : Nat} (same : Nat.toDigits 10 m = Nat.toDigits 10 n) : m = n := by
  rw [← Nat.ofDigitChars_ten_toDigits (n := m), same, Nat.ofDigitChars_ten_toDigits]

theorem isDigit_of_mem_toDigits {c : Char} {n : Nat} (present : c ∈ Nat.toDigits 10 n) :
    c.isDigit = true :=
  Nat.isDigit_of_mem_toDigits (by decide) (by decide) present

theorem toList_decimalText (n : Int) :
    (decimalText n).toList = (if n < 0 then ['-'] else []) ++ Nat.toDigits 10 n.natAbs := by
  simp [decimalText]

theorem minus_or_digit_of_mem_decimalText {c : Char} {n : Int}
    (present : c ∈ (decimalText n).toList) : c = '-' ∨ c.isDigit = true := by
  rw [toList_decimalText, List.mem_append] at present
  rcases present with sign | digit
  · split at sign
    · exact .inl (by simpa using sign)
    · simp at sign
  · exact .inr (isDigit_of_mem_toDigits digit)

theorem minus_notMem_toDigits (n : Nat) : '-' ∉ Nat.toDigits 10 n := fun present =>
  absurd (isDigit_of_mem_toDigits present) (by decide)

theorem decimalText_injective {m n : Int} (same : decimalText m = decimalText n) : m = n := by
  have characters := congrArg String.toList same
  rw [toList_decimalText, toList_decimalText] at characters
  -- The sign is the only minus, so the signs agree and the digits are those of both.
  have signs : m < 0 ↔ n < 0 := by
    have minus := congrArg (fun text => '-' ∈ text) characters
    simpa [minus_notMem_toDigits] using minus
  by_cases negative : m < 0
  · rw [if_pos negative, if_pos (signs.mp negative)] at characters
    have magnitude := toDigits_injective (List.append_cancel_left characters)
    omega
  · rw [if_neg negative, if_neg (signs.not.mp negative)] at characters
    have magnitude := toDigits_injective characters
    omega

theorem notMem_decimalText {c : Char} (noMinus : c ≠ '-') (noDigit : c.isDigit = false)
    (n : Int) : c ∉ (decimalText n).toList := by
  intro present
  rcases minus_or_digit_of_mem_decimalText present with minus | digit
  · exact noMinus minus
  · rw [noDigit] at digit
    cases digit

theorem underscore_notMem_decimalText (n : Int) : '_' ∉ (decimalText n).toList :=
  notMem_decimalText (by decide) rfl n

/-! ## Roles -/

namespace NodeRole

/-- The role that a label tells. -/
def ofLabel : List Char → NodeRole
  | 'v' :: rest => if rest.head? = some 'x' then .videoJoin else .segmentVideo
  | 'a' :: rest =>
    if rest.head? = some 'x' then .audioJoin else if '_' ∈ rest then .segmentAudio else .mix
  | _ => .mix

theorem head?_decimalText_append_ne (n : Int) (rest : List Char)
    (plain : rest.head? ≠ some 'x') : ((decimalText n).toList ++ rest).head? ≠ some 'x' := by
  intro marked
  have absent : 'x' ∉ (decimalText n).toList := notMem_decimalText (by decide) rfl n
  cases digits : (decimalText n).toList with
  | nil => exact plain (by simpa [digits] using marked)
  | cons c others =>
    have first : c = 'x' := by simpa [digits] using marked
    exact absent (by simp [digits, first])

theorem ofLabel_label (role : NodeRole) (index track : Int) :
    ofLabel (role.label index track).toList = role := by
  -- What follows the letter of a cut's node is a numeral, so it is not the letter of a join.
  have bare : (decimalText index).toList.head? ≠ some 'x' := by
    simpa using head?_decimalText_append_ne index [] (by simp)
  have tracked : ((decimalText index).toList ++ '_' :: (decimalText track).toList).head? ≠
      some 'x' := head?_decimalText_append_ne index _ (by simp)
  cases role with
  | segmentVideo => simp [label, ofLabel, bare]
  | segmentAudio =>
    have text : (label .segmentAudio index track).toList =
        'a' :: ((decimalText index).toList ++ '_' :: (decimalText track).toList) := by
      simp [label]
    rw [text, ofLabel, if_neg tracked, if_pos (by simp)]
  | mix => simp [label, ofLabel, bare, underscore_notMem_decimalText]
  | videoJoin => simp [label, ofLabel]
  | audioJoin => simp [label, ofLabel]

end NodeRole

/-! ## Keys -/

namespace Node

/-- What the label of a node depends on. The track counts only for the sounds of cuts. -/
def key (node : Node) : NodeRole × Int × Int :=
  (node.role, node.index, if node.role = .segmentAudio then node.track else 0)

/-- The key of a node that is no sound of a cut has just its role and its index. -/
theorem key_eq_iff {node : Node} {role : NodeRole} {index : Int}
    (untracked : role ≠ .segmentAudio) :
    node.key = (role, index, 0) ↔ node.role = role ∧ node.index = index := by
  constructor
  · intro same
    obtain ⟨isRole, isIndex, _⟩ : node.role = role ∧ node.index = index ∧ _ := by
      simpa [key] using same
    exact ⟨isRole, isIndex⟩
  · rintro ⟨rfl, rfl⟩
    rw [key, if_neg untracked]

theorem track_eq_of_label {index other : Int} {track otherTrack : Int}
    (same : NodeRole.segmentAudio.label index track =
      NodeRole.segmentAudio.label other otherTrack) : index = other ∧ track = otherTrack := by
  have characters : (decimalText index).toList ++ '_' :: (decimalText track).toList =
      (decimalText other).toList ++ '_' :: (decimalText otherTrack).toList := by
    simpa [NodeRole.label] using congrArg String.toList same
  obtain ⟨first, -, second⟩ := (List.append_cons_inj_of_notMem
    (underscore_notMem_decimalText index) (underscore_notMem_decimalText track)).mp characters
  exact ⟨decimalText_injective (String.toList_injective first),
    decimalText_injective (String.toList_injective second)⟩

/-- Two nodes have the same label exactly when they have the same key. -/
theorem label_eq_iff {node other : Node} : node.label = other.label ↔ node.key = other.key := by
  constructor
  · intro same
    -- The role is read off first, since it says how the rest of the label is made.
    have role : node.role = other.role := by
      rw [← NodeRole.ofLabel_label node.role node.index node.track,
        ← NodeRole.ofLabel_label other.role other.index other.track]
      exact congrArg (NodeRole.ofLabel ·.toList) same
    unfold label at same
    rw [← role] at same
    unfold key
    rw [← role]
    cases known : node.role with
    | segmentAudio =>
      rw [known] at same
      obtain ⟨index, track⟩ := track_eq_of_label same
      rw [index, track]
    | segmentVideo | mix | videoJoin | audioJoin =>
      have index : node.index = other.index := by
        rw [known] at same
        exact decimalText_injective (by simpa [NodeRole.label, String.append_right_inj] using same)
      simp [index]
  · intro same
    obtain ⟨role, index, track⟩ : node.role = other.role ∧ node.index = other.index ∧
        (if node.role = .segmentAudio then node.track else 0) =
          if other.role = .segmentAudio then other.track else 0 := by
      simpa [key] using same
    unfold label
    rw [← role, index]
    cases known : node.role with
    | segmentAudio => rw [show node.track = other.track by simpa [known, ← role] using track]
    | segmentVideo | mix | videoJoin | audioJoin => rfl

end Node

namespace Graph

variable {graph : Graph}

/-- The keys of all nodes. -/
def keys (graph : Graph) : List (NodeRole × Int × Int) :=
  graph.nodes.map Node.key

theorem keys_push (node : Node) : (graph.push node).keys = graph.keys ++ [node.key] := by
  simp [keys]

/-- Nodes with different keys have different labels. -/
theorem labels_nodup (different : graph.keys.Nodup) : graph.labels.Nodup := by
  unfold labels
  unfold keys at different
  rw [List.nodup_iff_pairwise_ne, List.pairwise_map] at *
  exact different.imp fun differ same => differ (Node.label_eq_iff.mp same)

/-- Where keys are different, a node is known by its key. -/
theorem eq_of_key (different : graph.keys.Nodup) {node other : Node} (nodeIn : node ∈ graph.nodes)
    (otherIn : other ∈ graph.nodes) (same : node.key = other.key) : node = other :=
  List.inj_on_of_nodup_map different nodeIn otherIn same

end Graph

end Montage
