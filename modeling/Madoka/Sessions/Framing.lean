import Madoka.Lib.Framing
import Madoka.Sessions.Socket

namespace Sessions

open Lib

-- One turn of the loop: the frame it pushes and what is left of the buffer; none: it breaks.
def takeFrame (buf : List UInt8) : Option (ClientFrame × List UInt8) :=
  if buf.length < 2 then none
  else
    let cmd := cmdOf (byteAt buf 0)
    let region := byteAt buf 1
    if cmd = .heartbeat then some (⟨cmd, region, []⟩, buf.drop 2)
    else if buf.length < 6 then none
    else
      let len := readUInt32BE buf 2
      if buf.length < 6 + len then none
      else some (⟨cmd, region, (buf.drop 6).take len⟩, buf.drop (6 + len))

variable {buf more rest : List UInt8} {f : ClientFrame}

theorem byteAt_append {i : Nat} (h : i < buf.length) : byteAt (buf ++ more) i = byteAt buf i := by
  unfold byteAt
  rw [List.getD_eq_getElem?_getD, List.getD_eq_getElem?_getD, List.getElem?_append_left h]

theorem readUInt32BE_append {i : Nat} (h : i + 4 ≤ buf.length) :
    readUInt32BE (buf ++ more) i = readUInt32BE buf i := by
  unfold readUInt32BE
  rw [byteAt_append (by omega), byteAt_append (by omega), byteAt_append (by omega),
    byteAt_append (by omega)]

inductive Taken (buf : List UInt8) : ClientFrame → List UInt8 → Prop where
  | heartbeat (hlen : 2 ≤ buf.length) (hcmd : cmdOf (byteAt buf 0) = .heartbeat) :
      Taken buf ⟨.heartbeat, byteAt buf 1, []⟩ (buf.drop 2)
  | request (hcmd : cmdOf (byteAt buf 0) ≠ .heartbeat) (hlen : 6 + readUInt32BE buf 2 ≤ buf.length) :
      Taken buf ⟨cmdOf (byteAt buf 0), byteAt buf 1, (buf.drop 6).take (readUInt32BE buf 2)⟩
        (buf.drop (6 + readUInt32BE buf 2))

theorem takeFrame_iff : takeFrame buf = some (f, rest) ↔ Taken buf f rest := by
  constructor
  · intro h
    simp only [takeFrame] at h
    split_ifs at h with h2 hcmd h6 hlen
    · cases h
      rw [hcmd]
      exact .heartbeat (by omega) hcmd
    · cases h
      exact .request hcmd (by omega)
  · intro h
    cases h with
    | heartbeat hlen hcmd => simp only [takeFrame, if_neg (Nat.not_lt.mpr hlen), hcmd, if_true]
    | request hcmd hlen =>
      simp only [takeFrame]
      rw [if_neg (by omega), if_neg hcmd, if_neg (by omega), if_neg (by omega)]

theorem taken_append (h : Taken buf f rest) : Taken (buf ++ more) f (rest ++ more) := by
  cases h with
  | heartbeat hlen hcmd =>
    rw [← List.drop_append_of_le_length hlen, ← @byteAt_append buf more 1 (by omega)]
    exact .heartbeat (by rw [List.length_append]; omega) (by rw [byteAt_append (by omega)]; exact hcmd)
  | request hcmd hlen =>
    have hcmd' := @byteAt_append buf more 0 (by omega)
    have hread := @readUInt32BE_append buf more 2 (by omega)
    have hpayload : ((buf ++ more).drop 6).take (readUInt32BE buf 2) =
        (buf.drop 6).take (readUInt32BE buf 2) := by
      rw [List.drop_append_of_le_length (by omega), List.take_append_of_le_length]
      rw [List.length_drop]
      omega
    have htaken : Taken (buf ++ more) _ _ := .request (hcmd'.symm ▸ hcmd)
      (by rw [hread, List.length_append]; omega)
    rw [hread, hpayload, hcmd', byteAt_append (by omega), List.drop_append_of_le_length (by omega)] at htaken
    exact htaken

theorem taken_length (h : Taken buf f rest) : rest.length + 2 ≤ buf.length := by
  cases h with
  | heartbeat hlen hcmd =>
    rw [List.length_drop]
    omega
  | request hcmd hlen =>
    rw [List.length_drop]
    omega

def clientFraming : Framing ClientFrame UInt8 where
  head := takeFrame
  consumes := fun _ _ _ h => by
    have hlen := taken_length (takeFrame_iff.mp h)
    omega
  stable := fun _ _ _ _ h => takeFrame_iff.mpr (taken_append (takeFrame_iff.mp h))

theorem parseFrames_eq (fuel : Nat) (buf : List UInt8) :
    parseFrames fuel buf = clientFraming.parse fuel buf := by
  induction fuel generalizing buf with
  | zero => rfl
  | succ fuel ih =>
    rw [parseFrames, Framing.parse]
    simp only [clientFraming, takeFrame, ih]
    split_ifs <;> rfl

theorem parses_iff {fs : List ClientFrame} :
    clientFraming.Parses buf fs rest ↔ parseClientFrames buf = (fs, rest) := by
  unfold parseClientFrames
  rw [parseFrames_eq]
  exact Framing.parses_iff (Nat.le_refl _)

theorem parses_parseClientFrames (buf : List UInt8) :
    clientFraming.Parses buf (parseClientFrames buf).1 (parseClientFrames buf).2 :=
  parses_iff.mpr rfl

-- handleConnection: a chunk is parsed behind what the chunks before it have left.
def feed (buf : List UInt8) : List (List UInt8) → List ClientFrame × List UInt8
  | [] => ([], buf)
  | chunk :: chunks =>
    let parsed := parseClientFrames (buf ++ chunk)
    let later := feed parsed.2 chunks
    (parsed.1 ++ later.1, later.2)

theorem parses_feed {chunks : List (List UInt8)} (h : takeFrame buf = none) :
    clientFraming.Parses (buf ++ chunks.flatten) (feed buf chunks).1 (feed buf chunks).2 := by
  induction chunks generalizing buf with
  | nil =>
    rw [List.flatten_nil, List.append_nil]
    exact .stop h
  | cons chunk chunks ih =>
    have hparsed := parses_parseClientFrames (buf ++ chunk)
    rw [List.flatten_cons, ← List.append_assoc]
    exact Framing.parses_append hparsed (ih (Framing.parses_rest hparsed))

-- The frames of a client as they are on the wire.
inductive WireFrame where
  | heartbeat (region : UInt8)
  | request (cmd region : UInt8) (payload : List UInt8) (hcmd : cmd ≠ 2)
      (hlen : payload.length < 4294967296)

def uint32BE (n : Nat) : List UInt8 :=
  [n / 16777216, n / 65536, n / 256, n].map UInt8.ofNat

namespace WireFrame

def bytes : WireFrame → List UInt8
  | .heartbeat region => [2, region]
  | .request cmd region payload _ _ => cmd :: region :: (uint32BE payload.length ++ payload)

def frame : WireFrame → ClientFrame
  | .heartbeat region => ⟨.heartbeat, region.toNat, []⟩
  | .request cmd region payload _ _ => ⟨cmdOf cmd.toNat, region.toNat, payload⟩

end WireFrame

theorem readUInt32BE_uint32BE {n : Nat} {a b : UInt8} (h : n < 4294967296) :
    readUInt32BE (a :: b :: (uint32BE n ++ more)) 2 = n := by
  change ((((n / 16777216) % 256) * 256 + (n / 65536) % 256) * 256 + (n / 256) % 256) * 256 + n % 256 = n
  omega

theorem cmdOf_heartbeat {b : Nat} : cmdOf b = .heartbeat ↔ b = 2 := by
  unfold cmdOf
  split_ifs with h1 h2
  · simp [h1]
  · simp [h2]
  · simp [h2]

theorem takeFrame_bytes (x : WireFrame) (more : List UInt8) :
    takeFrame (x.bytes ++ more) = some (x.frame, more) := by
  rw [takeFrame_iff]
  cases x with
  | heartbeat region => exact .heartbeat (Nat.le_add_left 2 _) rfl
  | request cmd region payload hcmd hlen =>
    have hread := @readUInt32BE_uint32BE (payload ++ more) payload.length cmd region hlen
    have hne : cmdOf cmd.toNat ≠ .heartbeat := fun h =>
      hcmd (UInt8.toNat_inj.mp (cmdOf_heartbeat.mp h))
    have hbuf : (WireFrame.request cmd region payload hcmd hlen).bytes ++ more =
        cmd :: region :: (uint32BE payload.length ++ (payload ++ more)) := by
      simp only [WireFrame.bytes, List.cons_append, List.append_assoc]
    have hdrop : ∀ n, (cmd :: region :: (uint32BE payload.length ++ (payload ++ more))).drop (6 + n) =
        (payload ++ more).drop n := by
      intro n
      rw [Nat.add_comm]
      rfl
    have htaken : Taken (cmd :: region :: (uint32BE payload.length ++ (payload ++ more))) _ _ :=
      .request hne (by
        rw [hread]
        simp only [List.length_cons, List.length_append, uint32BE, List.length_map, List.length_nil]
        omega)
    rw [hread, hdrop, List.drop_left, show (6 : Nat) = 6 + 0 from rfl, hdrop, List.drop_zero,
      List.take_left] at htaken
    rw [hbuf]
    exact htaken

-- The cuts do not matter, the frames of a client are read back, and the loop ends by its own test.
theorem framing_exact :
    (∀ chunks, feed [] chunks = parseClientFrames chunks.flatten) ∧
    (∀ xs : List WireFrame, parseClientFrames (xs.flatMap WireFrame.bytes) =
      (xs.map WireFrame.frame, [])) ∧
    ∀ buf fuel, buf.length ≤ fuel → parseFrames fuel buf = parseClientFrames buf ∧
      takeFrame (parseClientFrames buf).2 = none := by
  refine ⟨fun chunks => ?_, fun xs => ?_, fun buf fuel hfuel => ⟨?_, ?_⟩⟩
  · have hempty : takeFrame [] = none := rfl
    exact (parses_iff.mp (parses_feed hempty)).symm
  · exact parses_iff.mp (Framing.parses_encoded takeFrame_bytes xs)
  · rw [parseFrames_eq]
    exact (Framing.parses_iff hfuel).mp (parses_parseClientFrames buf)
  · exact Framing.parses_rest (parses_parseClientFrames buf)

end Sessions
