import Overlay.Number.Double

/-!
# Colors on the wheel

Colors given by hue, saturation and lightness, or by hue, saturation and brightness, all as parts
of one, and the red, green and blue channels they come to.

## Main definitions
- `Color.ofHueLightness`, `Color.ofHueBrightness`: the three channels as parts of one
- `Color.byteOf`: a part of one as a channel from 0 to 255
-/

namespace Overlay.Color

/-- A third of the wheel. -/
def third : Double := Double.div 1 3

/-- A sixth of the wheel. -/
def sixth : Double := Double.div 1 6

/-- Two thirds of the wheel. -/
def twoThirds : Double := Double.div 2 3

/-- A half. -/
def half : Double := Double.div 1 2

/-- A channel between two levels at a place on the wheel. -/
def levelAt (low high hue : Double) : Double :=
  let h := hue.wrapToOne
  if h.lt sixth then low.add (((high.sub low).mul h).mul 6)
  else if h.lt half then high
  else if h.lt twoThirds then low.add (((high.sub low).mul (twoThirds.sub h)).mul 6)
  else low

/-- Red, green and blue of a hue, a lightness and a saturation. -/
def ofHueLightness (hue lightness saturation : Double) : Double × Double × Double :=
  if saturation.same 0 then (lightness, lightness, lightness)
  else
    let high :=
      if lightness.le half then lightness.mul (Double.add 1 saturation)
      else (lightness.add saturation).sub (lightness.mul saturation)
    let low := (Double.mul 2 lightness).sub high
    (levelAt low high (hue.add third), levelAt low high hue, levelAt low high (hue.sub third))

/-- Red, green and blue of a hue, a saturation and a brightness. -/
def ofHueBrightness (hue saturation brightness : Double) : Double × Double × Double :=
  if saturation.same 0 then (brightness, brightness, brightness)
  else
    let turned := hue.mul 6
    let sector := turned.truncate
    let rest := turned.sub (Double.ofInt sector)
    let low := brightness.mul (Double.sub 1 saturation)
    let falling := brightness.mul (Double.sub 1 (saturation.mul rest))
    let rising := brightness.mul (Double.sub 1 (saturation.mul (Double.sub 1 rest)))
    match (sector % 6).toNat with
    | 0 => (brightness, rising, low)
    | 1 => (falling, brightness, low)
    | 2 => (low, brightness, rising)
    | 3 => (low, falling, brightness)
    | 4 => (rising, low, brightness)
    | _ => (brightness, low, falling)

/-- A part of one as a channel, rounded by dropping what is left after adding a half. -/
def byteOf (part : Double) : Int :=
  ((part.mul 255).add half).truncate

end Overlay.Color
