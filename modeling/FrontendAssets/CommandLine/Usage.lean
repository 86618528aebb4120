import FrontendAssets.Arguments.Grammar
import FrontendAssets.Diagnostic

/-!
# `FrontendAssets.CommandLine.Usage`: the commands and how they are called

There are two commands, one that resolves an address and one that tells content types. Each page of
help belongs to a command or to the whole program, and complaints begin with the usage of the page
they belong to.
-/

set_option autoImplicit false

namespace FrontendAssets.CommandLine

/-- A page of help. The overview is the page of the program without a command. -/
inductive Page where
  | overview
  | resolve
  | mime
  deriving DecidableEq, Repr

namespace Page

/-- How the program is called on a page: by its own name, and by that of the command on its page. -/
def program : Page → Text
  | .overview => "perch".toList
  | .resolve => "perch resolve".toList
  | .mime => "perch mime".toList

/-- The usage of a page, with its line breaks. Complaints show it too. -/
def usage : Page → Text
  | .overview => "usage: perch [-h] \x7bresolve,mime\x7d ...\n".toList
  | .resolve =>
    ("usage: perch resolve [-h] [--bundle BUNDLE]\n"
      ++ "                     [--custom-devtools-frontend CUSTOM_FRONTEND]\n"
      ++ "                     [--bundled-path BUNDLED_PATH] [-o OUTPUT]\n"
      ++ "                     [--log-level \x7bdebug,info,warning,error\x7d]\n"
      ++ "                     url\n").toList
  | .mime => "usage: perch mime [-h] names [names ...]\n".toList

/-- What a page says below its usage. The width of the lines is that of a terminal with 80
columns. -/
def details : Page → Text
  | .overview =>
    ("\nPerch: resolve developer-tools frontend resources.\n"
      ++ "\npositional arguments:\n"
      ++ "  \x7bresolve,mime\x7d\n"
      ++ "    resolve       Resolve a frontend URL to bytes\n"
      ++ "    mime          Print the mime type for file names or URLs\n"
      ++ "\noptions:\n"
      ++ "  -h, --help      show this help message and exit\n").toList
  | .resolve =>
    ("\npositional arguments:\n"
      ++ "  url                   Request URL (e.g.\n"
      ++ "                        devtools://devtools/bundled/inspector.html)\n"
      ++ "\noptions:\n"
      ++ "  -h, --help            show this help message and exit\n"
      ++ "  --bundle BUNDLE       Directory loaded as the bundled resource set\n"
      ++ "  --custom-devtools-frontend CUSTOM_FRONTEND\n"
      ++ "                        Override URL (file:///path/to/frontend)\n"
      ++ "  --bundled-path BUNDLED_PATH\n"
      ++ "                        Mount segment handled by the router\n"
      ++ "  -o OUTPUT, --output OUTPUT\n"
      ++ "                        Write the body to this file instead of stdout\n"
      ++ "  --log-level \x7bdebug,info,warning,error\x7d\n"
      ++ "                        Diagnostic verbosity\n").toList
  | .mime =>
    ("\npositional arguments:\n"
      ++ "  names       File names or URLs\n"
      ++ "\noptions:\n"
      ++ "  -h, --help  show this help message and exit\n").toList

/-- A page of help: how the program is called, what it is for, and what each operand and switch
means. -/
def help (p : Page) : Text := p.usage ++ p.details

/-- A complaint under the usage of a page. It goes beside the output, and help goes to the
output. -/
def complaint (p : Page) (what : Text) : Text :=
  p.usage ++ p.program ++ ": error: ".toList ++ what ++ "\n".toList

end Page

/-- The switches. Each page has some of them, and the one for help is on every page. -/
inductive Key where
  | help
  | bundle
  | frontend
  | mount
  | output
  | level
  deriving DecidableEq, Repr

namespace Key

/-- The names of a switch, in the order in which complaints list them. -/
def names : Key → List Text
  | .help => ["-h".toList, "--help".toList]
  | .bundle => ["--bundle".toList]
  | .frontend => ["--custom-devtools-frontend".toList]
  | .mount => ["--bundled-path".toList]
  | .output => ["-o".toList, "--output".toList]
  | .level => ["--log-level".toList]

/-- A switch; only the one for help takes no word. -/
def switch (k : Key) : Arguments.Switch Key := ⟨k, k.names, k != .help⟩

end Key

namespace Page

/-- What a command line may hold on a page. The overview reads no further than the command, and
leaves everything behind it to the page of the command. -/
def grammar : Page → Arguments.Grammar Key
  | .overview => ⟨[Key.help.switch], some .remainder, true⟩
  | .resolve =>
    ⟨[Key.help, .bundle, .frontend, .mount, .output, .level].map Key.switch, some .one, true⟩
  | .mime => ⟨[Key.help.switch], some .several, true⟩

end Page

/-- The commands by their names. A name is not abbreviated, unlike the name of a switch. -/
def commands : List (Text × Page) := [("resolve".toList, .resolve), ("mime".toList, .mime)]

end FrontendAssets.CommandLine
