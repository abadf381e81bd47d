import FlowDiagram.Text.Basic

/-!
# The request for a revision

The prompt asks a language model to correct a piece of code. It names title and context of the
diagram, shows the code in a fenced block, and lists the problems that were found.
-/

namespace FlowDiagram.Repair
open FlowDiagram.Text

/-- The text, or another where it is missing or empty. -/
def textOr (default : Text) (t : Option Text) : Text :=
  match t with
  | none | some [] => default
  | some t => t

/-- The problems as a list with a hyphen before each but the first. -/
def problemList (problems : List Text) : Text :=
  if problems.isEmpty then "none detected" else joinWith "\n- " problems

def promptHead : Text :=
  "You are an expert in Mermaid diagram syntax. Fix the following Mermaid code.\n\nTITLE: "

def promptCode : Text := "\n\nORIGINAL CODE:\n```mermaid\n"

def promptProblems : Text := "\n```\n\nPROBLEMS FOUND:\n- "

def promptRules : Text :=
  ("\n\nRules:\n" ++
   "- Use only valid Mermaid syntax (graph TD, flowchart, sequenceDiagram, ...)\n" ++
   "- Keep the original meaning, nodes and structure\n" ++
   "- Define every node once, then reference it by id\n" ++
   "- No HTML tags such as <br> or <div>\n" ++
   "- Write arrows as --> or -- label -->\n\n" ++
   "Return ONLY the corrected Mermaid code, without explanations or markdown fences.\n")

def prompt (code : Text) (problems : List Text) (title context : Option Text) : Text :=
  promptHead ++ textOr "Unknown" title ++
    "\nCONTEXT: " ++ textOr "No context available" context ++
    promptCode ++ code ++ promptProblems ++ problemList problems ++ promptRules

end FlowDiagram.Repair
