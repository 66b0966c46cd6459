import PostFilter.Command.Query

/-!
# Showing the configuration

The texts of the commands about the config file.
-/

namespace PostFilter.View

/-! ## Settings -/

def outputJson (o : OutputSettings) : Json :=
  .object ((o.color.map fun b => ("color", Json.bool b)).toList ++
    (o.limit.map fun n => ("limit", Json.nat n)).toList)

def configJson (c : Config) : Json :=
  .object ([("output", outputJson c.output)] ++
    (c.snapshot.map fun path => ("snapshot", Json.string path)).toList ++
    [("version", .nat Config.currentVersion)])

def settingsJson (path : String) (isThere : Bool) (c : Config) : Json :=
  .object [("config", configJson c), ("exists", .bool isThere), ("path", .string path)]

/-- An indented line for a setting that has a value. -/
def settingLine (name : String) (value : Option String) : String :=
  match value with
  | some v => "  " ++ name ++ ": " ++ v ++ "\n"
  | none => ""

def settingsText (colors : Bool) (path : String) (isThere : Bool) (c : Config) : String :=
  let title := "Configuration"
  (if colors then Style.bold.paint (Style.green.paint title) else title) ++ "\n\n" ++
    "File: " ++ path ++ "\n" ++ "Exists: " ++ toString isThere ++ "\n\n" ++
    if isThere then
      "Settings:\n" ++ settingLine "snapshot" c.snapshot ++ "\n[output]\n" ++
        settingLine "color" (c.output.color.map toString) ++
        settingLine "limit" (c.output.limit.map toString)
    else "(No config file exists. Run 'fr config init' to create one.)\n"

def settings (v : View) (path : String) (isThere : Bool) (c : Config) : Outcome :=
  .success
    (if v.json then (settingsJson path isThere c).pretty ++ "\n"
    else if v.quiet then ""
    else settingsText v.colors path isThere c)

/-! ## The file -/

def configPath (v : View) (path : String) (isThere : Bool) : Outcome :=
  .success
    (if v.json then
      (Json.object [("exists", .bool isThere), ("path", .string path)]).pretty ++ "\n"
    else path ++ "\n")

def creationText (path : String) (created : Bool) : String :=
  (if created then "Created default config at: " else "Config already exists at: ") ++ path ++ "\n"

/-- What is shown once the config file is there, whether it was created just now or before. -/
def configCreation (v : View) (path : String) (created : Bool) : Outcome :=
  .success
    (if v.json then
      (Json.object [("created", .bool created), ("path", .string path)]).pretty ++ "\n"
    else if v.quiet then ""
    else creationText path created)

end PostFilter.View
