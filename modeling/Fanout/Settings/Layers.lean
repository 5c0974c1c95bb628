import Fanout.Settings.Path

/-!
# Layers of settings

Settings come in layers: defaults below everything, then the sources in their
order, then overrides on top. Defaults and overrides name their places by
paths. A source gives a table, and a name at its top is read as a path too, so
that one flat table can reach as deep as a nested one; a name that is no path
stands for itself.
-/

namespace Fanout

/-- Values with the places they are meant for, each place once. -/
abbrev Placements := List (SettingPath × Setting)

/-- What settings are made of. -/
structure Layers where
  defaults : Placements := []
  sources : List Settings := []
  overrides : Placements := []

namespace Placements

/-- Gives a place its value; a value it was given before is forgotten. -/
def place (path : SettingPath) (value : Setting)
    (held : Placements) : Placements :=
  withoutKey path held ++ [(path, value)]

/-- Placements from named places, if every name is a path. -/
def ofNamed? (named : List (String × Setting)) : Option Placements :=
  named.foldlM (fun held entry =>
    (SettingPath.ofText? entry.1).map fun path => place path entry.2 held) []

end Placements

namespace Settings

/-- Lays placed values over settings. -/
def layPlaced (settings : Settings) (placed : Placements) : Settings :=
  placed.foldl (fun held p => put p.1 p.2 held) settings

/-- Lays a source over settings. -/
def laySource (settings source : Settings) : Settings :=
  source.foldl (fun held e => put (SettingPath.ofName e.1) e.2 held) settings

end Settings

namespace Layers

/-- The settings that all layers together give. -/
def settings (layers : Layers) : Settings :=
  let base := Settings.layPlaced [] layers.defaults
  Settings.layPlaced (layers.sources.foldl Settings.laySource base)
    layers.overrides

end Layers

end Fanout
