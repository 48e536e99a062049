import RoboVR.Wire.TeleopHeader

/- The conversion of one decoded YUV buffer to RGBA, for output without a surface. -/
namespace QuestCpuFrame
open QuestTeleop (Bytes)

/-- What the codec last reported; 0 where it has reported nothing. -/
structure OutputFormat where
  stride : Int := 0
  sliceHeight : Int := 0
  colorFormat : Int := 0
  deriving DecidableEq

/-- The keys an output format has; a missing key leaves the stored value. -/
structure FormatKeys where
  stride : Option Int
  sliceHeight : Option Int
  colorFormat : Option Int

def updateOutputFormat (format : OutputFormat) : Option FormatKeys → OutputFormat
  | none => format
  | some keys =>
    { stride := keys.stride.getD format.stride
      sliceHeight := keys.sliceHeight.getD format.sliceHeight
      colorFormat := keys.colorFormat.getD format.colorFormat }

def toSizeT (n : Int) : Nat := (n % 2 ^ 64).toNat

def toInt32 (n : Nat) : Int := if n % 2 ^ 32 < 2 ^ 31 then n % 2 ^ 32 else n % 2 ^ 32 - 2 ^ 32

def clampByte (value : Int) : UInt8 := UInt8.ofNat (min (max value 0) 255).toNat

def yuvToRgb (y u v : UInt8) : List UInt8 :=
  let c : Int := y.toNat - 16
  let d : Int := u.toNat - 128
  let e : Int := v.toNat - 128
  [clampByte ((298 * c + 409 * e + 128) / 256),
    clampByte ((298 * c - 100 * d - 208 * e + 128) / 256),
    clampByte ((298 * c + 516 * d + 128) / 256)]

/-- The planes of a buffer: all positions are counted from its start. -/
structure Planes where
  offset : Nat
  stride : Nat
  sliceHeight : Nat
  colorFormat : Int

def planesOf (format : OutputFormat) (width height : Nat) (offset : Int) : Planes :=
  { offset := toSizeT offset
    stride := toSizeT (if format.stride > 0 then format.stride else toInt32 width)
    sliceHeight := toSizeT (if format.sliceHeight > 0 then format.sliceHeight else toInt32 height)
    colorFormat := format.colorFormat }

def Planes.luma (p : Planes) : Nat := toSizeT (p.stride * p.sliceHeight)

def Planes.yIndex (p : Planes) (x y : Nat) : Nat := p.offset + toSizeT (y * p.stride + x)

def Planes.semiPlanar (p : Planes) (size x y : Nat) : Option (Nat × Nat) :=
  let uvIndex := toSizeT ((y / 2) * p.stride + (x / 2) * 2)
  let first := p.offset + p.luma + uvIndex
  if toSizeT (first + 1) < size then some (first, first + 1) else none

def Planes.planar (p : Planes) (size x y : Nat) : Option (Nat × Nat) :=
  let chromaStride := p.stride / 2
  let chromaSliceHeight := p.sliceHeight / 2
  let uvIndex := toSizeT ((y / 2) * chromaStride + x / 2)
  let u := p.offset + p.luma + uvIndex
  let v := p.offset + p.luma + toSizeT (chromaStride * chromaSliceHeight) + uvIndex
  if toSizeT v < size then some (u, v) else none

def Planes.chroma (p : Planes) (size x y : Nat) : Option (Nat × Nat) :=
  if p.colorFormat = 21 then p.semiPlanar size x y
  else if p.colorFormat = 19 then p.planar size x y
  else none

def pixel (p : Planes) (output : Bytes) (x y : Nat) : List UInt8 :=
  let yValue := output.getD (p.yIndex x y) 0
  match p.chroma output.length x y with
  | some (u, v) => yuvToRgb yValue (output.getD u 0) (output.getD v 0) ++ [255]
  | none => yuvToRgb yValue 128 128 ++ [255]

def convert (format : OutputFormat) (width height : Nat) (offset : Int) (output : Bytes) :
    Option Bytes :=
  let p := planesOf format width height offset
  if output.length ≥ toSizeT (p.offset + p.luma) then
    some ((List.range height).flatMap fun y => (List.range width).flatMap fun x => pixel p output x y)
  else none

end QuestCpuFrame
