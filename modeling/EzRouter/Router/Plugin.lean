import EzRouter.Foundation.Bytes

/-!
# Plugin handlers

`plugin_loader.c` and the handlers of `plugins/filter.c`.  A handler rewrites
the reactor's read buffer in place and returns a new length, which it may
choose freely.
-/

namespace EzRouter

open EzRouter.Foundation

/-- `uint8_t buf[1024]` on the stack of `reactor_thread`. -/
def readBufSize : Nat := 1024

abbrev PluginHandler := Buffer readBufSize → Int → Buffer readBufSize × Int

def maxHandlers : Nat := 256

structure HandlerEntry where
  fullName : Buffer 128
  func : PluginHandler

def dotted (pluginName handlerName : CStr) : CStr where
  bytes := pluginName.bytes ++ 46 :: handlerName.bytes
  noNul := by
    simp [pluginName.noNul, handlerName.noNul]

def pluginRegisterHandler (handlers : List HandlerEntry)
    (pluginName handlerName : CStr) (func : PluginHandler) :
    List HandlerEntry :=
  if handlers.length ≥ maxHandlers then handlers
  else handlers ++ [⟨.ofStr 128 (dotted pluginName handlerName), func⟩]

def pluginGetHandler (handlers : List HandlerEntry) (fullName : CStr) :
    Option PluginHandler :=
  (handlers.find? fun entry => decide (entry.fullName.str = fullName)).map
    (·.func)

def toUpperByte (b : UInt8) : UInt8 :=
  if 97 ≤ b ∧ b ≤ 122 then b - 32 else b

def usbToUart : PluginHandler := fun data len =>
  (⟨(data.bytes.take len.toNat).map toUpperByte ++ data.bytes.drop len.toNat, by
      have := data.length_eq
      simp
      omega⟩, len)

def uartToUsb : PluginHandler := fun data len =>
  if len + 1 > 2048 then (data, len)
  else ((data.write 1 (data.bytes.take len.toNat)).write 0 [0xAA], len + 1)

end EzRouter
