import ConstantReply.Proofs.Http2.FrameText
import ConstantReply.Proofs.Http2.RequestList

/-!
# Frames that a client may send

The frames of a client that asks and listens, with everything that may stand in them: padding,
priorities, settings, and frames of unknown kinds.  The server understands each of them.
-/

namespace ConstantReply
namespace Http2

structure Priority where
  exclusive : Bool
  dependency : Nat
  weight : UInt8
  deriving DecidableEq

namespace Priority

def bytes (p : Priority) : List UInt8 :=
  bytesOf 4 ((if p.exclusive then halfRange else 0) + p.dependency) ++ [p.weight]

structure IsOf (may : Liberties) (p : Priority) (stream : Nat) : Prop where
  dependency : p.dependency < halfRange
  other : may.selfDependence = true ∨ p.dependency ≠ stream

instance (may : Liberties) (p : Priority) (stream : Nat) : Decidable (p.IsOf may stream) :=
  decidable_of_iff
    (p.dependency < halfRange ∧ (may.selfDependence = true ∨ p.dependency ≠ stream))
    ⟨fun h => ⟨h.left, h.right⟩, fun h => ⟨h.dependency, h.other⟩⟩

end Priority

def padded (padding : Option (List UInt8)) (content : List UInt8) : List UInt8 :=
  match padding with
  | none => content
  | some p => UInt8.ofNat p.length :: (content ++ p)

structure IsSetting (s : Setting) : Prop where
  id : s.id < 65536
  value : s.value < 4294967296
  valid : Frame.Setting.isValid s = true

instance (s : Setting) : Decidable (IsSetting s) :=
  decidable_of_iff (s.id < 65536 ∧ s.value < 4294967296 ∧ Frame.Setting.isValid s = true)
    ⟨fun h => ⟨h.left, h.right.left, h.right.right⟩, fun h => ⟨h.id, h.value, h.valid⟩⟩

def IsStream (stream : Nat) : Prop := 0 < stream ∧ stream < halfRange

instance (stream : Nat) : Decidable (IsStream stream) :=
  inferInstanceAs (Decidable (0 < stream ∧ stream < halfRange))

def IsPadding (padding : Option (List UInt8)) : Prop := forall p, p ∈ padding -> p.length < 256

instance (padding : Option (List UInt8)) : Decidable (IsPadding padding) :=
  inferInstanceAs (Decidable (forall p, p ∈ padding -> p.length < 256))

inductive ClientFrame where
  | headers (stream : Nat) (padding : Option (List UInt8)) (priority : Option Priority)
      (fragment : List UInt8) (endHeaders endStream : Bool)
  | continuation (stream : Nat) (fragment : List UInt8) (endHeaders : Bool)
  | data (stream : Nat) (padding : Option (List UInt8)) (content : List UInt8) (endStream : Bool)
  | priority (stream : Nat) (p : Priority)
  | settings (settings : List Setting)
  | settingsAck
  | ping (payload : List UInt8)
  | windowUpdate (stream increment : Nat)
  | unknown (kind : Nat) (flags : UInt8) (stream : Nat) (payload : List UInt8)
  deriving DecidableEq

namespace ClientFrame

def flag (given : Bool) (f : UInt8) : UInt8 := if given then f else 0

def headersFlags (endHeaders endStream isPadded hasPriority : Bool) : UInt8 :=
  flag endStream Flag.endStream ||| flag endHeaders Flag.endHeaders |||
    flag isPadded Flag.padded ||| flag hasPriority Flag.priority

def dataFlags (endStream isPadded : Bool) : UInt8 :=
  flag endStream Flag.endStream ||| flag isPadded Flag.padded

def raw : ClientFrame -> RawFrame
  | .headers stream padding p fragment endHeaders endStream =>
      .of 1 (headersFlags endHeaders endStream padding.isSome p.isSome) stream
        (padded padding ((p.map Priority.bytes).getD [] ++ fragment))
  | .continuation stream fragment endHeaders =>
      .of 9 (flag endHeaders Flag.endHeaders) stream fragment
  | .data stream padding content endStream =>
      .of 0 (dataFlags endStream padding.isSome) stream (padded padding content)
  | .priority stream p => .of 2 0 stream p.bytes
  | .settings list => .of 4 0 0 (list.flatMap Setting.bytes)
  | .settingsAck => .of 4 Flag.ack 0 []
  | .ping payload => .of 6 0 0 payload
  | .windowUpdate stream increment => .of 8 0 stream (bytesOf 4 increment)
  | .unknown kind flags stream payload => .of kind flags stream payload

def bytes (f : ClientFrame) : List UInt8 := f.raw.bytes

def frame : ClientFrame -> Frame
  | .headers stream _ _ fragment endHeaders endStream =>
      .headers stream fragment endHeaders endStream
  | .continuation stream fragment endHeaders => .continuation stream fragment endHeaders
  | .data stream padding content endStream =>
      .data stream content (padded padding content).length endStream
  | .settings list => .settings list
  | .settingsAck => .settingsAck
  | .ping payload => .ping payload
  | .windowUpdate stream increment => .windowUpdate stream increment
  | .priority _ _ | .unknown _ _ _ _ => .ignored

def HasSoundParts (may : Liberties) : ClientFrame -> Prop
  | .headers stream padding p _ _ _ =>
      IsStream stream ∧ IsPadding padding ∧ forall q, q ∈ p -> q.IsOf may stream
  | .continuation stream _ _ => IsStream stream
  | .data stream padding _ _ => IsStream stream ∧ IsPadding padding
  | .priority stream p => IsStream stream ∧ p.IsOf may stream
  | .settings list => forall s, s ∈ list -> IsSetting s
  | .settingsAck => True
  | .ping payload => payload.length = 8
  | .windowUpdate stream increment => stream < halfRange ∧ 0 < increment ∧ increment < halfRange
  | .unknown kind _ stream _ => 10 ≤ kind ∧ kind < 256 ∧ stream < halfRange

instance (may : Liberties) : (f : ClientFrame) -> Decidable (f.HasSoundParts may)
  | .headers stream padding p _ _ _ =>
      inferInstanceAs
        (Decidable (IsStream stream ∧ IsPadding padding ∧ forall q, q ∈ p -> q.IsOf may stream))
  | .continuation stream _ _ => inferInstanceAs (Decidable (IsStream stream))
  | .data stream padding _ _ => inferInstanceAs (Decidable (IsStream stream ∧ IsPadding padding))
  | .priority stream p => inferInstanceAs (Decidable (IsStream stream ∧ p.IsOf may stream))
  | .settings list => inferInstanceAs (Decidable (forall s, s ∈ list -> IsSetting s))
  | .settingsAck => inferInstanceAs (Decidable True)
  | .ping payload => inferInstanceAs (Decidable (payload.length = 8))
  | .windowUpdate stream increment =>
      inferInstanceAs (Decidable (stream < halfRange ∧ 0 < increment ∧ increment < halfRange))
  | .unknown kind _ stream _ =>
      inferInstanceAs (Decidable (10 ≤ kind ∧ kind < 256 ∧ stream < halfRange))

structure IsSound (may : Liberties) (f : ClientFrame) : Prop where
  parts : f.HasSoundParts may
  size : f.raw.2.length ≤ greatestPayload

instance (may : Liberties) (f : ClientFrame) : Decidable (f.IsSound may) :=
  decidable_of_iff (f.HasSoundParts may ∧ f.raw.2.length ≤ greatestPayload)
    ⟨fun h => ⟨h.left, h.right⟩, fun h => ⟨h.parts, h.size⟩⟩

theorem fits_raw {may : Liberties} {f : ClientFrame} (h : f.IsSound may) : f.raw.Fits := by
  have hzero : 0 < halfRange := by
    decide
  have hsize := h.size
  have hparts := h.parts
  cases f with
  | headers => exact RawFrame.fits_of _ hsize (by decide) hparts.left.right
  | continuation => exact RawFrame.fits_of _ hsize (by decide) hparts.right
  | data => exact RawFrame.fits_of _ hsize (by decide) hparts.left.right
  | priority => exact RawFrame.fits_of _ hsize (by decide) hparts.left.right
  | settings => exact RawFrame.fits_of _ hsize (by decide) hzero
  | settingsAck => exact RawFrame.fits_of _ hsize (by decide) hzero
  | ping => exact RawFrame.fits_of _ hsize (by decide) hzero
  | windowUpdate => exact RawFrame.fits_of _ hsize (by decide) hparts.left
  | unknown => exact RawFrame.fits_of _ hsize hparts.right.left hparts.right.right

/-!
## Understanding
-/

theorem unpad_padded {padding : Option (List UInt8)} (h : IsPadding padding) (content : List UInt8) :
    Frame.unpad padding.isSome (padded padding content) = .ok content := by
  cases padding with
  | none => rfl
  | some p =>
      have hlength : (UInt8.ofNat p.length).toNat = p.length :=
        UInt8.toNat_ofNat_of_lt' (h p rfl)
      simp [Frame.unpad, padded, hlength]

theorem has_headersFlags {h : FrameHeader} {endHeaders endStream isPadded hasPriority : Bool}
    (hflags : h.flags = headersFlags endHeaders endStream isPadded hasPriority) :
    h.has Flag.endHeaders = endHeaders ∧ h.has Flag.endStream = endStream ∧
      h.has Flag.padded = isPadded ∧ h.has Flag.priority = hasPriority := by
  simp only [FrameHeader.has, hflags]
  clear hflags
  revert endHeaders endStream isPadded hasPriority
  decide

theorem has_dataFlags {h : FrameHeader} {endStream isPadded : Bool}
    (hflags : h.flags = dataFlags endStream isPadded) :
    h.has Flag.endStream = endStream ∧ h.has Flag.padded = isPadded := by
  simp only [FrameHeader.has, hflags]
  clear hflags
  revert endStream isPadded
  decide

theorem number_priority {p : Priority} (h : p.dependency < halfRange) (rest : List UInt8) :
    number ((p.bytes ++ rest).take 4) % halfRange = p.dependency := by
  have hfour := length_bytesOf 4 ((if p.exclusive then halfRange else 0) + p.dependency)
  have hlt : (if p.exclusive then halfRange else 0) + p.dependency < 4294967296 := by
    simp only [halfRange] at h ⊢
    split <;> omega
  rw [Priority.bytes, List.append_assoc, List.take_left' hfour, number_bytesOf hlt]
  split
  · rw [Nat.add_mod_left, Nat.mod_eq_of_lt h]
  · rw [Nat.zero_add, Nat.mod_eq_of_lt h]

theorem length_priority (p : Priority) : p.bytes.length = 5 := by
  rw [Priority.bytes, List.length_append, length_bytesOf, List.length_singleton]

theorem readSettings_bytes {list : List Setting} (h : forall s, s ∈ list -> IsSetting s) :
    Frame.readSettings (list.flatMap Setting.bytes) = some list := by
  induction list with
  | nil => rfl
  | cons s rest ih =>
      have hs := h s List.mem_cons_self
      have hid : number (bytesOf 2 s.id) = s.id := number_bytesOf hs.id
      have hvalue : number (bytesOf 4 s.value) = s.value := number_bytesOf hs.value
      have hread : Frame.readSettings (Setting.bytes s ++ rest.flatMap Setting.bytes) =
          (Frame.readSettings (rest.flatMap Setting.bytes)).map
            (⟨number (bytesOf 2 s.id), number (bytesOf 4 s.value)⟩ :: ·) := rfl
      rw [List.flatMap_cons, hread, ih fun t ht => h t (List.mem_cons_of_mem s ht), hid, hvalue]
      rfl

theorem headers?_of_priority {h : FrameHeader} {padding : Option (List UInt8)} {p : Option Priority}
    {fragment : List UInt8} {endHeaders endStream : Bool} (hstream : IsStream h.stream)
    (hpadding : IsPadding padding) (hpriority : forall q, q ∈ p -> q.IsOf {} h.stream)
    (hflags : h.flags = headersFlags endHeaders endStream padding.isSome p.isSome) :
    Frame.headers? h (padded padding ((p.map Priority.bytes).getD [] ++ fragment)) =
      .ok (.headers h.stream fragment endHeaders endStream) := by
  rcases has_headersFlags hflags with ⟨hheaders, hend, hpadded, hgiven⟩
  have hzero : h.stream ≠ 0 := Nat.ne_of_gt hstream.left
  rw [Frame.headers?, if_neg hzero, hpadded, unpad_padded hpadding]
  simp only [hheaders, hend, hgiven]
  cases p with
  | none => rfl
  | some q =>
      have hq := hpriority q rfl
      have hother : q.dependency ≠ h.stream := hq.other.resolve_left (by simp)
      have hnumber := number_priority hq.dependency fragment
      have hlength : ¬ (q.bytes ++ fragment).length < 5 := by
        rw [List.length_append, length_priority]
        omega
      simp only [Option.isSome_some, Bool.true_eq_false, if_false, Option.map_some, Option.getD_some,
        hlength, hnumber, hother, List.drop_left' (length_priority q)]

theorem data?_of_padding {h : FrameHeader} {padding : Option (List UInt8)} {content : List UInt8}
    {endStream : Bool} (hstream : IsStream h.stream) (hpadding : IsPadding padding)
    (hflags : h.flags = dataFlags endStream padding.isSome) :
    Frame.data? h (padded padding content) =
      .ok (.data h.stream content h.length endStream) := by
  rcases has_dataFlags hflags with ⟨hend, hpadded⟩
  have hzero : h.stream ≠ 0 := Nat.ne_of_gt hstream.left
  rw [Frame.data?, if_neg hzero, hpadded, unpad_padded hpadding, hend]
  rfl

theorem priority?_of_priority {h : FrameHeader} {p : Priority} (hstream : IsStream h.stream)
    (hp : p.IsOf {} h.stream) : Frame.priority? h p.bytes = .ok .ignored := by
  have hzero : h.stream ≠ 0 := Nat.ne_of_gt hstream.left
  have hother : p.dependency ≠ h.stream := hp.other.resolve_left (by simp)
  have hnumber := number_priority hp.dependency []
  rw [List.append_nil] at hnumber
  rw [Frame.priority?, if_neg (by simp [hzero, length_priority]), hnumber, if_neg hother]

theorem settings?_of_settings {h : FrameHeader} {list : List Setting} (hstream : h.stream = 0)
    (hflags : h.flags = 0) (hlist : forall s, s ∈ list -> IsSetting s) :
    Frame.settings? h (list.flatMap Setting.bytes) = .ok (.settings list) := by
  have hack : h.has Flag.ack = false := by
    rw [FrameHeader.has, hflags]
    decide
  have hvalid : list.all Frame.Setting.isValid = true :=
    List.all_eq_true.mpr fun s hs => (hlist s hs).valid
  simp [Frame.settings?, hstream, hack, readSettings_bytes hlist, hvalid]

theorem windowUpdate?_of_increment {h : FrameHeader} {increment : Nat} (hpos : 0 < increment)
    (hlt : increment < halfRange) :
    Frame.windowUpdate? h (bytesOf 4 increment) = .ok (.windowUpdate h.stream increment) := by
  have hnumber : number (bytesOf 4 increment) % halfRange = increment := by
    rw [number_bytesOf (Nat.lt_trans hlt (by decide)), Nat.mod_eq_of_lt hlt]
  simp [Frame.windowUpdate?, hnumber, length_bytesOf, Nat.ne_of_gt hpos]

theorem ofPayload_raw {f : ClientFrame} (h : f.IsSound {}) :
    Frame.ofPayload f.raw.1 f.raw.2 = .ok f.frame := by
  have hparts := h.parts
  cases f with
  | headers stream padding p fragment endHeaders endStream =>
      exact headers?_of_priority hparts.left hparts.right.left hparts.right.right rfl
  | continuation stream fragment endHeaders =>
      have hzero : stream ≠ 0 := Nat.ne_of_gt hparts.left
      have hend : ((flag endHeaders Flag.endHeaders &&& Flag.endHeaders) != 0) = endHeaders := by
        cases endHeaders <;> decide
      simp [raw, frame, RawFrame.of, Frame.ofPayload, Frame.continuation?, hzero, FrameHeader.has,
        hend]
  | data stream padding content endStream =>
      exact data?_of_padding hparts.left hparts.right rfl
  | priority stream p => exact priority?_of_priority hparts.left hparts.right
  | settings list => exact settings?_of_settings rfl rfl hparts
  | settingsAck => rfl
  | ping payload =>
      have hlength : payload.length = 8 := hparts
      simp [raw, frame, RawFrame.of, Frame.ofPayload, Frame.ping?, hlength, FrameHeader.has]
  | windowUpdate stream increment =>
      exact windowUpdate?_of_increment hparts.right.left hparts.right.right
  | unknown kind flags stream payload =>
      rcases Nat.exists_eq_add_of_le' hparts.left with ⟨more, rfl⟩
      rfl

end ClientFrame
end Http2
end ConstantReply
