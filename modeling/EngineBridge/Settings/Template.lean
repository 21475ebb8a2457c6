/-! The settings file that users find when they have not written one. -/
namespace EngineBridge.Settings

/-- Every setting with its default, commented out, so that the file says nothing. -/
def template : String :=
  String.join (List.map (· ++ "\n") [
    "# emubridge configuration",
    "# Only override what you want to change -- missing fields use defaults.",
    "",
    "[display]",
    "# scale_factor = 1.0     # 0.25-8.0, device pixels per logical unit",
    "",
    "[output]",
    "# frames_dir = \"/tmp/emubridge-frames\"   # one PNG per window on exit",
    "# echo_stdout = true",
    "",
    "[engine]",
    "# program = \"hello\"      # hello | gradient",
    "# frames = 3             # 1-600",
    "# width = 320            # 1-4096",
    "# height = 200           # 1-4096",
    "",
    "[logging]",
    "# level = \"info\"         # trace | debug | info | warn | error",
    "# engine_level = \"debug\""])

end EngineBridge.Settings
