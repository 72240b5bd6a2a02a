import StaticOpus.Hooks
import StaticOpus.Release
import StaticOpus.Text.Utf8

/-!
# Generated headers

A build of the codec learns the storage sizes and the hook names from two headers. Their texts are
made from the same constants that the library uses, so a header can only be stale, never wrong.
-/

namespace StaticOpus

/-- The headers that are generated. -/
inductive Header where
  | decoder
  | customSupport
  deriving DecidableEq

namespace Header

/-- Every header, in the order in which they are written. -/
def all : List Header := [decoder, customSupport]

/-- The name of a header's file. -/
def fileName : Header → String
  | decoder => "decoder.h"
  | customSupport => "custom_support.h"

/-- The member that reserves a decoder in a mode. -/
def reservation (mode : Mode) : String :=
  "    char _unused[" ++ toString mode.storageSize ++ "] __attribute__((aligned(" ++
    toString storageAlignment ++ ")));"

/-- The lines of the header that reserves a decoder. -/
def decoderLines : List String := [
  "/*",
  " * Generated by `cargo xtask headers` from crates/opus-shim/src/storage.rs.",
  " * Do not edit by hand.",
  " *",
  " * Stand-in for libopus' private struct OpusDecoder so that a binding",
  " * generator emits a correctly sized opaque type instead of a pointer-only",
  " * one. Measured against libopus " ++ Release.pinned ++ ".",
  " */",
  "#ifndef OPUS_SHIM_DECODER_H",
  "#define OPUS_SHIM_DECODER_H",
  "",
  "#include <opus.h>",
  "",
  "/**",
  " * Struct big enough to contain OpusDecoder of libopus " ++ Release.pinned ++ " so it can be",
  " * reserved on the stack.",
  " * <div rustbindgen replaces=\"OpusDecoder\"></div>",
  " */",
  "struct OpusDecoder \x7b",
  "#ifdef OPUS_SHIM_STEREO",
  reservation .stereo,
  "#else",
  reservation .mono,
  "#endif",
  "\x7d;",
  "",
  "#endif /* OPUS_SHIM_DECODER_H */"]

/-- The lines of the header that declares the hooks. -/
def customSupportLines : List String := [
  "/*",
  " * Generated by `cargo xtask headers` from crates/opus-shim/src/alloc.rs.",
  " * Do not edit by hand.",
  " *",
  " * Pass to a libopus build with -DCUSTOM_SUPPORT and -I<this directory>.",
  " * The hooks are defined by opus-shim with the `custom-support` feature:",
  " * allocation always fails and freeing does nothing, so every decoder must",
  " * live in caller-provided storage (see decoder.h).",
  " */",
  "#ifndef OPUS_SHIM_CUSTOM_SUPPORT_H",
  "#define OPUS_SHIM_CUSTOM_SUPPORT_H",
  "",
  "#include <stddef.h>",
  "",
  "#define OVERRIDE_OPUS_ALLOC",
  "void *" ++ Slot.alloc.symbol ++ "(size_t size);",
  "",
  "#define OVERRIDE_OPUS_REALLOC",
  "void *" ++ Slot.realloc.symbol ++ "(void *ptr, size_t size);",
  "",
  "#define OVERRIDE_OPUS_FREE",
  "void " ++ Slot.free.symbol ++ "(void *ptr);",
  "",
  "#endif /* OPUS_SHIM_CUSTOM_SUPPORT_H */"]

/-- The lines of a header. -/
def lines : Header → List String
  | decoder => decoderLines
  | customSupport => customSupportLines

/-- The text of a header. -/
def contents (header : Header) : String := String.join (header.lines.map (· ++ "\n"))

/-- The bytes of a header's file. -/
def bytes (header : Header) : List UInt8 := Text.Utf8.encode header.contents

theorem fileName_injective {first second : Header} (h : first.fileName = second.fileName) :
    first = second := by
  cases first <;> cases second <;> simp_all [fileName]

end Header

end StaticOpus
