import Sheetsmith.Numeric.Remainder

namespace Sheetsmith

/-- A colour by its red, green and blue light and its opacity, each in single precision with 1 for
full strength. The other ways of naming a colour are converted to this one. -/
structure Color where
  red : Float32
  green : Float32
  blue : Float32
  alpha : Float32

namespace Color

/-- The value moved into the range from 0 to 1; what is no number stays so. -/
def clampUnit (x : Float32) : Float32 :=
  if x < 0 then 0 else if 1 < x then 1 else x

/-- The value, or 0 when it is negative or no number. -/
def atLeastZero (x : Float32) : Float32 :=
  if 0 < x then x else 0

/-- A colour from three bytes and an opacity byte. -/
def ofBytes (red green blue alpha : Nat) : Color :=
  let unit (n : Nat) : Float32 := Float32.ofNat n / 255
  ⟨unit red, unit green, unit blue, unit alpha⟩

/-- One channel of a hue, at a position on the circle of six sections, between the two levels. -/
def hueLevel (low high position : Float32) : Float32 :=
  let x := Numeric.wrap position 6
  if x < 1 then low + (high - low) * x
  else if x < 3 then high
  else if x < 4 then low + (high - low) * (4 - x)
  else low

/-- The light of a hue in degrees with a saturation and a lightness. -/
def hslLight (hue saturation lightness : Float32) : Float32 × Float32 × Float32 :=
  if saturation == 0 then (lightness, lightness, lightness)
  else
    let high :=
      if lightness < 0.5 then lightness * (1 + saturation)
      else lightness + saturation - lightness * saturation
    let low := 2 * lightness - high
    let position := hue / 60
    (hueLevel low high (position + 2), hueLevel low high position, hueLevel low high (position - 2))

/-- A hue with a saturation and a lightness. -/
def ofHsl (hue saturation lightness alpha : Float32) : Color :=
  let (red, green, blue) := hslLight (Numeric.wrap hue 360) saturation lightness
  ⟨red, green, blue, alpha⟩

/-- A hue mixed with white and black. -/
def ofHwb (hue white black alpha : Float32) : Color :=
  if 1 ≤ white + black then
    let level := white / (white + black)
    ⟨level, level, level, alpha⟩
  else
    let (red, green, blue) := hslLight (Numeric.wrap hue 360) 1 0.5
    let mix (x : Float32) := x * (1 - white - black) + white
    ⟨mix red, mix green, mix blue, alpha⟩

/-- A hue with a saturation and a value. -/
def ofHsv (hue saturation value alpha : Float32) : Color :=
  let lightness := (2 - saturation) * value / 2
  let saturation :=
    if lightness == 0 then saturation
    else if lightness == 1 then 0
    else if lightness < 0.5 then saturation * value / (lightness * 2)
    else saturation * value / (2 - lightness * 2)
  let (red, green, blue) := hslLight (Numeric.wrap hue 360) saturation lightness
  ⟨red, green, blue, alpha⟩

/-- The strength of a channel for an amount of light. -/
def ofLinear (x : Float32) : Float32 :=
  if 0.0031308 ≤ x then 1.055 * Float32.pow x (1 / 2.4) - 0.055 else 12.92 * x

/-- A lightness and two opponent axes, by perception. -/
def ofOklab (lightness a b alpha : Float32) : Color :=
  let cube (x : Float32) := x * x * x
  let l := cube (lightness + 0.3963377774 * a + 0.2158037573 * b)
  let m := cube (lightness - 0.1055613458 * a - 0.0638541728 * b)
  let s := cube (lightness - 0.0894841775 * a - 1.2914855480 * b)
  ⟨ofLinear (4.0767416621 * l - 3.3077115913 * m + 0.2309699292 * s),
    ofLinear (-1.2684380046 * l + 2.6097574011 * m - 0.3413193965 * s),
    ofLinear (-0.0041960863 * l - 0.7034186147 * m + 1.7076147010 * s), alpha⟩

/-- A lightness, a chroma and a hue in degrees, by perception. -/
def ofOklch (lightness chroma hue alpha : Float32) : Color :=
  let radians := hue * (3.14159265358979323846 / 180)
  ofOklab lightness (chroma * radians.cos) (chroma * radians.sin) alpha

/-- A channel as the nearest byte. -/
def channelByte (x : Float32) : Nat :=
  (x * 255 + 0.5).toUInt8.toNat

end Color

end Sheetsmith
