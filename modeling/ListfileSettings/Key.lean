import ListfileSettings.Choice

/-!
# Keys

The keys of the settings. Each has a kind of values, a section that it is listed in, and a line of
help.
-/
namespace ListfileSettings

/-- The values that a key takes. -/
inductive Kind where
  /-- An integer from one on. -/
  | positive
  /-- An integer from zero on. -/
  | count
  | flag
  | caseStyle
  | lineEnding
  /-- A list of texts. -/
  | names
  deriving DecidableEq, Repr

inductive Section where
  | formatting
  | commands
  | wrapping
  | miscellaneous
  deriving DecidableEq, Repr

def Section.all : List Section := [.formatting, .commands, .wrapping, .miscellaneous]

def Section.title : Section → String
  | .formatting => "Formatting options"
  | .commands => "Command-specific formatting"
  | .wrapping => "Argument grouping & wrapping"
  | .miscellaneous => "Miscellaneous"

inductive Key where
  | lineWidth
  | tabSize
  | useTabchars
  | maxSubgroupsHwrap
  | separateCtrlNameWithSpace
  | separateFnNameWithSpace
  | keywordCase
  | commandCase
  | alwaysWrap
  | enableSort
  | autosort
  | dangleParens
  | maxPargsHwrap
  | minPrefixChars
  | maxPrefixChars
  | maxLinesHwrap
  | lineEnding
  deriving DecidableEq, Repr

namespace Key

def text : Key → String
  | lineWidth => "line_width"
  | tabSize => "tab_size"
  | useTabchars => "use_tabchars"
  | maxSubgroupsHwrap => "max_subgroups_hwrap"
  | separateCtrlNameWithSpace => "separate_ctrl_name_with_space"
  | separateFnNameWithSpace => "separate_fn_name_with_space"
  | keywordCase => "keyword_case"
  | commandCase => "command_case"
  | alwaysWrap => "always_wrap"
  | enableSort => "enable_sort"
  | autosort => "autosort"
  | dangleParens => "dangle_parens"
  | maxPargsHwrap => "max_pargs_hwrap"
  | minPrefixChars => "min_prefix_chars"
  | maxPrefixChars => "max_prefix_chars"
  | maxLinesHwrap => "max_lines_hwrap"
  | lineEnding => "line_ending"

instance : Named Key where
  all := [lineWidth, tabSize, useTabchars, maxSubgroupsHwrap, separateCtrlNameWithSpace,
    separateFnNameWithSpace, keywordCase, commandCase, alwaysWrap, enableSort, autosort,
    dangleParens, maxPargsHwrap, minPrefixChars, maxPrefixChars, maxLinesHwrap, lineEnding]
  name := text
  mem_all a := by cases a <;> simp
  name_injective a b := by cases a <;> cases b <;> simp [text]

/-- The keys in their canonical order. -/
def all : List Key := Named.all

def ofText? (s : String) : Option Key := Named.ofName? s

@[reducible] def kind : Key → Kind
  | lineWidth | tabSize => .positive
  | maxSubgroupsHwrap | maxPargsHwrap | minPrefixChars | maxPrefixChars | maxLinesHwrap => .count
  | useTabchars | separateCtrlNameWithSpace | separateFnNameWithSpace | enableSort | autosort
  | dangleParens => .flag
  | keywordCase | commandCase => .caseStyle
  | alwaysWrap => .names
  | lineEnding => .lineEnding

def listedIn : Key → Section
  | lineWidth | tabSize | useTabchars | maxSubgroupsHwrap | separateCtrlNameWithSpace
  | separateFnNameWithSpace => .formatting
  | keywordCase | commandCase | alwaysWrap | enableSort | autosort => .commands
  | dangleParens | maxPargsHwrap | minPrefixChars | maxPrefixChars | maxLinesHwrap => .wrapping
  | lineEnding => .miscellaneous

def help : Key → String
  | lineWidth => "How wide to allow formatted listfiles to be"
  | tabSize => "How many spaces to tab for indent"
  | useTabchars => "Indent with tab characters instead of spaces"
  | maxSubgroupsHwrap => "Subgroups allowed before a statement is wrapped vertically"
  | separateCtrlNameWithSpace => "Space between control statement names and parentheses"
  | separateFnNameWithSpace => "Space between function or macro names and parentheses"
  | keywordCase => "Case applied to keywords"
  | commandCase => "Case applied to command names"
  | alwaysWrap => "Commands that are always wrapped vertically"
  | enableSort => "Sort argument lists known to be sortable"
  | autosort => "Infer sortability of unannotated argument lists"
  | dangleParens => "Put the closing parenthesis of a wrapped statement on its own line"
  | maxPargsHwrap => "Positional arguments allowed before a group is wrapped vertically"
  | minPrefixChars => "Statement names this short are never nested"
  | maxPrefixChars => "Statement names this long are always nested"
  | maxLinesHwrap => "Lines a horizontal wrap may take before falling back to vertical"
  | lineEnding => "Line ending style written to output"

end Key

end ListfileSettings
