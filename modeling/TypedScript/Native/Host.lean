/-!
# The host of a module

A module that was compiled for LLVM calls an allocator and is entered by a routine of its own. The host is a C
file that provides the one and calls the other.
-/

namespace TypedScript.Native

/-- The symbols that host and module share. -/
structure Host where
  entry : String
  allocate : String
  release : String
  /-- Whether the program fails if objects are left at its end. -/
  reportLeaks : Bool := false
  deriving Inhabited, Repr

namespace Host

/-- The name of the file that the host is written to. -/
def fileName : String := "scriptc_host.c"

/-- The names of the templates that hosts are made from. -/
def templates : List String := ["native/host.c.tmpl"]

def leakCheck : List String :=
  ["\tif (live_objects != 0) \x7b",
    "\t\tfprintf(stderr, \"scriptc: %lld object(s) still live at exit\\n\", (long long)live_objects);",
    "\t\treturn 1;",
    "\t\x7d"]

/-- The lines of the file. -/
def lines (h : Host) : List String :=
  ["/* Host runtime for modules produced by scriptc.",
    s!" * Generated for entry {h.entry}, hooks {h.allocate} and {h.release}.",
    " * Link it with the compiled module, e.g.:",
    s!" *   clang main.ll {fileName} -o main",
    " */",
    "#include <stdint.h>",
    "#include <stdio.h>",
    "#include <stdlib.h>",
    "",
    "static int64_t live_objects;",
    "",
    "void *" ++ h.allocate ++ "(void *env, int64_t size) \x7b",
    "\t(void)env;",
    "\tvoid *p = calloc(1, (size_t)size);",
    "\tif (p == NULL) \x7b",
    "\t\tfprintf(stderr, \"scriptc: out of memory allocating %lld bytes\\n\", (long long)size);",
    "\t\tabort();",
    "\t\x7d",
    "\tlive_objects++;",
    "\treturn p;",
    "\x7d",
    "",
    "void " ++ h.release ++ "(void *env, void *p) \x7b",
    "\t(void)env;",
    "\tlive_objects--;",
    "\tfree(p);",
    "\x7d",
    "",
    "extern void " ++ h.entry ++ "(void);",
    "",
    "int main(void) \x7b",
    "\t" ++ h.entry ++ "();"]
  ++ (if h.reportLeaks then leakCheck else [])
  ++ ["\treturn 0;", "\x7d"]

/-- The text of the file. All three symbols have to be named. -/
def text (h : Host) : Except String String :=
  if h.entry = "" || h.allocate = "" || h.release = "" then .error "host runtime needs entry and hook names"
  else .ok (String.join (h.lines.map (· ++ "\n")))

end Host

end TypedScript.Native
