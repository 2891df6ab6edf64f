import TabDeck.Check.Argument

namespace TabDeck.Display

inductive ScreenSize where
  | small
  | normal
  | large
  | xLarge
  deriving DecidableEq

namespace ScreenSize

def name : ScreenSize → String
  | .small => "Small"
  | .normal => "Normal"
  | .large => "Large"
  | .xLarge => "XLarge"

def ofName? (s : String) : Option ScreenSize := [small, normal, large, xLarge].find? (·.name == s)

end ScreenSize

inductive Device where
  | phone
  | tablet
  deriving DecidableEq

def Device.name : Device → String
  | .phone => "Phone"
  | .tablet => "Tablet"

inductive Orientation where
  | portrait
  | landscape
  deriving DecidableEq

def Orientation.name : Orientation → String
  | .portrait => "Portrait"
  | .landscape => "Landscape"

structure Metrics where
  width : UInt32
  height : UInt32
  density : Float32
  size : ScreenSize

def leastNormal : Float32 := Float32.ofBits 0x00800000

def Metrics.create (width height : UInt32) (density : Float32) (size : ScreenSize) :
    Except IllegalArgument Metrics := do
  Check.isTrue density.isFinite "The density must be finite"
  let density ← Check.atLeast density leastNormal "The density must be greater than 0"
  return ⟨width, height, density, size⟩

namespace Metrics

def toPixels (m : Metrics) (dp : Float32) : Int32 := (dp * m.density).round.toInt32

def ofPixels (m : Metrics) (px : Float32) : Float32 := px / m.density

def touchSlop (m : Metrics) : Float32 := (m.toPixels 8).toFloat32

def device (m : Metrics) : Device :=
  match m.size with
  | .small => .phone
  | .normal => .phone
  | .large => .tablet
  | .xLarge => .tablet

def orientation (m : Metrics) : Orientation :=
  if m.height < m.width then .landscape else .portrait

end Metrics

end TabDeck.Display
