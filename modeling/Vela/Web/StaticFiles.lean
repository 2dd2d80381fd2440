import Vela.Common.Types
import Vela.Foundation.PercentDecoding
import Vela.Foundation.PosixPath
import Vela.Foundation.ScriptValues

/-! # Static files

The HTTP half of the web server: the configuration of the client, and the files of
the public folder. -/

namespace Vela

open Foundation

namespace StaticFiles

structure Settings where
  /-- The public folder, `DIR`. -/
  directory : List Char
  /-- The JSON text of the ICE servers. -/
  config : String

inductive Body where
  | empty
  | text (text : String)
  | octets (data : Bytes)
  deriving DecidableEq

structure Response where
  status : Nat
  contentType : Option String := none
  body : Body := .empty
  deriving DecidableEq

/-- What the handler of a request ends with: a response, or a file to read for one. -/
inductive Action where
  | respond (response : Response)
  | readFile (file : List Char)
  deriving DecidableEq

def decodeURIComponent (text : List Char) : Except ScriptError (List Char) :=
  match Percent.decode text with
  | some decoded => .ok decoded
  | none => .error .uriError

/-- `fs.readFile`, which refuses a path that has a NUL before it starts to read. -/
def readFile (file : List Char) : Except ScriptError Action :=
  if '\x00' ∈ file then .error .invalidArgument else .ok (.readFile file)

/-- The path of a request URL, still encoded. -/
def pathOf (url : List Char) : List Char := url.takeWhile (· ≠ '?')

/-- The file that a decoded path stands for. -/
def fileOf (settings : Settings) (urlPath : List Char) : List Char :=
  PosixPath.join settings.directory (if urlPath = ['/'] then "index.html".toList else urlPath)

def handler (settings : Settings) (url : List Char) : Except ScriptError Action := do
  let urlPath ← decodeURIComponent (pathOf url)
  if urlPath = "/config".toList then
    return .respond
      { status := 200, contentType := some "application/json", body := .text settings.config }
  else if ¬ settings.directory <+: fileOf settings urlPath then
    return .respond { status := 403 }
  else readFile (fileOf settings urlPath)

def mime (extension : List Char) : Option String :=
  if extension = ".html".toList then some "text/html"
  else if extension = ".js".toList then some "text/javascript"
  else if extension = ".css".toList then some "text/css"
  else none

/-- The callback of `fs.readFile`; an error of it has no data. -/
def onRead (file : List Char) : Option Bytes → Response
  | none => { status := 404, body := .text "Not found" }
  | some data =>
      { status := 200
        contentType := some ((mime (PosixPath.extname file)).getD "application/octet-stream")
        body := .octets data }

/-! ## Requests that are answered -/

/-- The path of a URL is well escaped, and it is not that of a file in the folder
with a NUL in its name. -/
def Servable (settings : Settings) (url : List Char) : Prop :=
  ∃ urlPath, Percent.Encodes (pathOf url) urlPath ∧
    (urlPath = "/config".toList ∨ ¬ settings.directory <+: fileOf settings urlPath ∨
      '\x00' ∉ fileOf settings urlPath)

theorem readFile_ok_iff (file : List Char) :
    (∃ action, readFile file = .ok action) ↔ '\x00' ∉ file := by
  rw [readFile]
  split
  · rename_i present
    simp [present]
  · rename_i absent
    simp [absent]

theorem handler_ok_iff (settings : Settings) (url : List Char) :
    (∃ action, handler settings url = .ok action) ↔ Servable settings url := by
  rw [handler, decodeURIComponent, Servable]
  cases decoded : Percent.decode (pathOf url) with
  | none =>
      apply iff_of_false
      · intro returns
        rcases returns with ⟨_, returned⟩
        cases returned
      · intro servable
        rcases servable with ⟨urlPath, encodes, _⟩
        rw [Percent.decode_of_encodes encodes] at decoded
        cases decoded
  | some urlPath =>
      have unique : ∀ other, Percent.Encodes (pathOf url) other ↔ other = urlPath := by
        intro other
        rw [← Percent.decode_eq_some, decoded, Option.some.injEq]
        exact eq_comm
      simp only [unique, exists_eq_left, ok_bind]
      by_cases isConfig : urlPath = "/config".toList
      · rw [if_pos isConfig]
        exact iff_of_true ⟨_, rfl⟩ (.inl isConfig)
      · rw [if_neg isConfig]
        by_cases inside : settings.directory <+: fileOf settings urlPath
        · rw [if_neg (not_not.mpr inside), readFile_ok_iff]
          simp only [isConfig, inside, not_true_eq_false, false_or]
        · rw [if_pos inside]
          exact iff_of_true ⟨_, rfl⟩ (.inr (.inl inside))

end StaticFiles

end Vela
