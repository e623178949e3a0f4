import Thermopile.Register.Control
import Thermopile.Register.Status

namespace Thermopile

/-- A part of a register that can be read and replaced. -/
structure RegisterField (R β : Type) where
  get : R → β
  set : R → β → R

inductive Setting
  | overwriteEnabled
  | subpagesEnabled
  | dataHold
  | subpageRepeat
  | selectedSubpage
  | frameRate
  | resolution
  | accessPattern
deriving DecidableEq

namespace Setting

abbrev Value : Setting → Type
  | overwriteEnabled | subpagesEnabled | dataHold | subpageRepeat => Bool
  | selectedSubpage => Subpage
  | frameRate => FrameRate
  | resolution => Resolution
  | accessPattern => AccessPattern

instance : (x : Setting) → DecidableEq x.Value
  | overwriteEnabled | subpagesEnabled | dataHold | subpageRepeat =>
    inferInstanceAs (DecidableEq Bool)
  | selectedSubpage => inferInstanceAs (DecidableEq Subpage)
  | frameRate => inferInstanceAs (DecidableEq FrameRate)
  | resolution => inferInstanceAs (DecidableEq Resolution)
  | accessPattern => inferInstanceAs (DecidableEq AccessPattern)

abbrev Home : Setting → Type
  | overwriteEnabled => Status
  | subpagesEnabled | dataHold | subpageRepeat | selectedSubpage | frameRate | resolution
  | accessPattern => Control

instance : (x : Setting) → Register x.Home
  | overwriteEnabled => inferInstanceAs (Register Status)
  | subpagesEnabled | dataHold | subpageRepeat | selectedSubpage | frameRate | resolution
  | accessPattern => inferInstanceAs (Register Control)

def field : (x : Setting) → RegisterField x.Home x.Value
  | overwriteEnabled => ⟨Status.overwriteEnabled, fun s v => s.apply (.overwriteEnabled v)⟩
  | subpagesEnabled => ⟨Control.useSubpages, fun c v => c.apply (.useSubpages v)⟩
  | dataHold => ⟨Control.dataHold, fun c v => c.apply (.dataHold v)⟩
  | subpageRepeat => ⟨Control.subpageRepeat, fun c v => c.apply (.subpageRepeat v)⟩
  | selectedSubpage => ⟨Control.subpage, fun c v => c.apply (.subpage v)⟩
  | frameRate => ⟨Control.frameRate, fun c v => c.apply (.frameRate v)⟩
  | resolution => ⟨Control.resolution, fun c v => c.apply (.resolution v)⟩
  | accessPattern => ⟨Control.accessPattern, fun c v => c.apply (.accessPattern v)⟩

end Setting
end Thermopile
