import ListfileSettings.Settings.InPlace

/-!
# Listing settings

The settings text that a record is listed as: the keys under the titles of their sections, each
with its help as a comment. A record can also be listed by what is shown of its keys; a key without a
literal is left out then.
-/
namespace ListfileSettings.Settings

def banner : List Char := "# ---------------------------------------------\n".toList

def titleChars (s : Section) : List Char :=
  banner ++ ['#', ' '] ++ s.title.toList ++ ['\n'] ++ banner

def padded (width : Nat) (cs : List Char) : List Char :=
  cs ++ List.replicate (width - cs.length) ' '

def assignmentChars (r : Settings) (k : Key) : List Char :=
  k.text.toList ++ [' ', '=', ' '] ++ (r.literal k).chars

/-- The column at which comments start, if the assignment is no longer. -/
def commentColumn : Nat := 40

def lineChars (r : Settings) (k : Key) : List Char :=
  padded commentColumn (r.assignmentChars k) ++ [' ', '#', ' '] ++ k.help.toList ++ ['\n']

def sectionKeys (s : Section) : List Key := Key.all.filter fun k => k.listedIn = s

def sectionChars (r : Settings) (s : Section) : List Char :=
  titleChars s ++ (sectionKeys s).flatMap r.lineChars

/-- The sections, with an empty line between them. -/
def chars (r : Settings) : List Char := ['\n'].intercalate (Section.all.map r.sectionChars)

def text (r : Settings) : String := String.ofList r.chars

/-! ### Listing what is shown -/

/-- The line of a key in a listing, with nothing on it if the key has no literal. -/
def shownLine (r : Settings) (k : Key) : List Char :=
  match r.literal? k.text with
  | some v =>
    padded commentColumn (k.text.toList ++ [' ', '=', ' '] ++ v.chars) ++ [' ', '#', ' '] ++
      k.help.toList ++ ['\n']
  | none => []

def shownSection (r : Settings) (s : Section) : List Char :=
  titleChars s ++ (sectionKeys s).flatMap r.shownLine

/-- The listing of what is shown. -/
def shown (r : Settings) : String :=
  String.ofList (['\n'].intercalate (Section.all.map r.shownSection))

end ListfileSettings.Settings
