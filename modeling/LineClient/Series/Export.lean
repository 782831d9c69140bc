import LineClient.Files
import LineClient.Log.Event
import LineClient.Series.Csv

/-!
# Exporting a series

The rows of a series are written to a file in one piece, and the event that tells so gives their
number.

* `exported`, the event;
* **`FileTree.exportSamples`**.
-/

namespace LineClient

/-- Tells that samples have been written to a file. -/
def exported (count : Nat) (path : String) : Event where
  level := .info
  source := .telemetry
  message := "Exported " ++ toString count ++ " samples to " ++ path

/-- Writes samples to the file that a path names. -/
def FileTree.exportSamples (files : FileTree) (path : String) (samples : List Sample) :
    Except WriteError (FileTree × Event) := do
  let files ← files.write path (csvText samples).toUTF8
  return (files, exported samples.length path)

end LineClient
