import Markup.Attribute
import Markup.Failure.Site

/-!
# Renderers

A renderer has its settings fixed once, for all the attributes it writes and the failures it
passes on.
-/

namespace Markup

structure Renderer where
  settings : Settings := {}

namespace Renderer

def attributeFor (r : Renderer) (key : String) (value : Value) (escaped : Bool) : String :=
  attributeText key value escaped r.settings.terse

def attributesFor (r : Renderer) (m : AttributeMap) : String := m.text r.settings.terse

def raisedAt (r : Renderer) (files : Files) (failure : Failure) (site : Site) :
    Failure × List Event :=
  failure.raisedAt r.settings files site

end Renderer

end Markup
