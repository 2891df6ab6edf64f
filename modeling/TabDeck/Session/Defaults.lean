import TabDeck.Session.CommandLine
import TabDeck.Text.Basic

namespace TabDeck.Session

structure Preferences where
  fontSize : UInt32
  bell : Bool
  vibrate : Bool
  execveWrapper : Bool
  autoCompletion : Bool
  fullScreen : Bool
  autoHideToolbar : Bool
  switchNextTab : Bool
  extraKeys : Bool
  explicitExtraKeysWeight : Bool
  backButtonAsEscape : Bool
  specialVolumeKeys : Bool
  wordBasedIme : Bool
  loginShell : String
  initialCommand : String
  defaultFont : String
  deriving DecidableEq

namespace Preferences

def default : Preferences where
  fontSize := 30
  bell := false
  vibrate := false
  execveWrapper := true
  autoCompletion := false
  fullScreen := false
  autoHideToolbar := false
  switchNextTab := false
  extraKeys := true
  explicitExtraKeysWeight := false
  backButtonAsEscape := false
  specialVolumeKeys := false
  wordBasedIme := false
  loginShell := "bash"
  initialCommand := ""
  defaultFont := "SourceCodePro"

def switches (p : Preferences) : List (String × Bool) :=
  [("bell", p.bell), ("vibrate", p.vibrate), ("execve_wrapper", p.execveWrapper),
    ("auto_completion", p.autoCompletion), ("full_screen", p.fullScreen),
    ("auto_hide_toolbar", p.autoHideToolbar), ("switch_next_tab", p.switchNextTab),
    ("extra_keys", p.extraKeys), ("explicit_extra_keys_weight", p.explicitExtraKeysWeight),
    ("back_button_as_escape", p.backButtonAsEscape), ("special_volume_keys", p.specialVolumeKeys),
    ("word_based_ime", p.wordBasedIme)]

def parameter (p : Preferences) : Parameter :=
  let shell := Text.trim p.loginShell
  { Parameter.empty with
    executable := some (if shell.isEmpty then default.loginShell else shell)
    command := if (Text.trim p.initialCommand).isEmpty then none else some p.initialCommand }

end Preferences

end TabDeck.Session
