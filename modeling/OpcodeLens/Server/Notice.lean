import OpcodeLens.Server.Basic

/-!
# Notices of the editor

What the editor tells the server: that the session starts, that settings have changed, and what
happens to its documents. Settings that are not valid change nothing and are reported.
-/

namespace OpcodeLens

/-- What the editor tells the server. -/
inductive Notice where
  /-- The session starts with the given settings. -/
  | opening (settings : Option Json)
  /-- The editor is ready. -/
  | opened
  /-- The settings have changed. -/
  | settingsChanged (settings : Json)
  /-- A document was opened. -/
  | documentOpened (address text : Text)
  /-- A document was changed; of several new texts the last one counts. -/
  | documentChanged (address : Text) (texts : List Text)
  /-- A document was closed. -/
  | documentClosed (address : Text)

namespace Server

/-- What the server says about settings that are not valid, with what is wrong with them. -/
def invalidSettingsText (fault : Text) : Text := "invalid server settings: ".toList ++ fault

/-- What the server says when the editor is ready. -/
def openedText : Text := "Sanny LSP initialized. Loading definitions...".toList

/-- The server after a notice, and what it says. -/
def notice (s : Server) : Notice → Server × List Outgoing
  | .opening settings =>
    let json := settings.getD .null
    match Settings.ofJson? json with
    | some settings => (s.applySettings settings, [])
    | none => (s, [.log .warning (invalidSettingsText (s.faultText json))])
  | .opened => (s.spawn, [.log .info openedText])
  | .settingsChanged json =>
    match Settings.ofJson? json with
    | some settings => ((s.applySettings settings).spawn, [])
    | none => (s, [.alert .warning (invalidSettingsText (s.faultText json))])
  | .documentOpened address text => ({ s with documents := s.documents.insert address text }, [])
  | .documentChanged address texts =>
    match s.documents.get? address, texts.getLast? with
    | some _, some text => ({ s with documents := s.documents.insert address text }, [])
    | _, _ => (s, [])
  | .documentClosed address => ({ s with documents := s.documents.erase address }, [])

end Server

end OpcodeLens
