import Cmux.Frame.Crc
import Cmux.Frame.Info

/-! The frame encoder of `cmux_frame_builder.c`. -/
namespace Cmux
open Access Access.Prog

def cmuxFrameBuilderGetFrameLength (frameBodySize : ℕ) : ℕ :=
  let frameSize := cmuxFrameHeaderSize
  let frameSize :=
    if frameBodySize > 127 then frameSize + cmuxFrameExtendedLengthSize
    else frameSize + cmuxFrameLengthSize
  let frameSize := frameSize + frameBodySize
  frameSize + cmuxFrameFooterSize

/-- The length octets, written from index 3 on. Returns the index behind them. -/
def buildLength (length : UInt16) : Prog UInt8 ℕ :=
  if length > 127 then do
    store 3 ((length &&& 0b01111111) <<< 1).toUInt8
    store 4 ((length &&& 0b0111111110000000) >>> 7).toUInt8
    pure 5
  else do
    store 3 (((length &&& 0b01111111) <<< 1) ||| 0x01).toUInt8
    pure 4

/-- The octets a frame's body copy moves: none without a length or with a null pointer. -/
def BuilderFrameInfo.bodyOctets (frameInfo : BuilderFrameInfo) : List UInt8 :=
  match frameInfo.frameDataBody with
  | some body => body.take frameInfo.length.toNat
  | none => []

/-- A mask when the flag is set. -/
def flagBit (flag : Bool) (mask : UInt8) : UInt8 := if flag then mask else 0x00

/-- `cmux_frame_builder`, over the octets of the output array. The checking sequence of an
UI frame is taken over the information field before the body is copied there. -/
def cmuxFrameBuilder (frameInfo : BuilderFrameInfo) : Prog UInt8 Unit := do
  store 0 cmuxFrameHeaderFooter
  store 1 (flagBit frameInfo.ea 0x01 ||| flagBit frameInfo.cr 0x02 ||| (frameInfo.dlci <<< 2))
  store 2 (frameInfo.type ||| flagBit frameInfo.pollFinal controlTypePollFinal)
  let frameIndex ← buildLength frameInfo.length
  let calculatedFcs ←
    if frameInfo.type = ControlType.ui then cmuxCrc 1 (frameIndex - 1 + frameInfo.length.toNat)
    else cmuxCrc 1 (frameIndex - 1)
  copy frameIndex frameInfo.bodyOctets
  let frameIndex := frameIndex + frameInfo.length.toNat
  store frameIndex calculatedFcs
  store (frameIndex + 1) cmuxFrameHeaderFooter

/-- What the encoder leaves in the array it is handed, up to the promised frame length. -/
def builtFrame (frameInfo : BuilderFrameInfo) (frame : ℕ → UInt8) : List UInt8 :=
  slice ((cmuxFrameBuilder frameInfo).memory frame) 0
    (cmuxFrameBuilderGetFrameLength frameInfo.length.toNat)

end Cmux
