import Smali.Source.Reader

/-!
# The standard library

The classes of the platform that programs commonly use, as a source of their own. Methods marked `native`
are implemented by the host.
-/

namespace Smali.Machine

/-- The source of the standard library. -/
def standardLibrary : String := "
.class public Ljava/lang/Object;
.method public constructor <init>()V
.end method

.class public Ljavax/crypto/spec/IvParameterSpec;
.super Ljava/lang/Object;

.class public Ljava/lang/Math;
.super Ljava/lang/Object;
.method public static random()D
    .registers 2
    const-wide v0, 0x0L
    return-wide v0
.end method

.class public Ljava/util/Random;
.super Ljava/lang/Object;
.method public constructor <init>()V
.end method

.class public abstract Ljava/util/Timer;
.super Ljava/lang/Object;
.method public constructor <init>()V
.end method

.class public Ljava/util/TimerTask;
.super Ljava/lang/Object;
.method public constructor <init>()V
.end method

.class public final Ljava/lang/String;
.super Ljava/lang/Object;
.method public constructor native <init>([III)V
.end method
.method public native length()I
.end method
.method public native charAt(I)C
.end method
.method public static native valueOf(I)Ljava/lang/String;
.end method
.method public static native valueOf(J)Ljava/lang/String;
.end method

.class public final Ljava/lang/Integer;
.super Ljava/lang/Object;
.method public static native valueOf(I)Ljava/lang/Integer;
.end method
.method public native intValue()I
.end method

.class public final Ljava/lang/Class;
.super Ljava/lang/Object;
.method public static native forName(Ljava/lang/String;)Ljava/lang/Class;
.end method
.method public native getDeclaredMethod(Ljava/lang/String;[Ljava/lang/Class;)Ljava/lang/reflect/Method;
.end method
.method public native getDeclaredField(Ljava/lang/String;)Ljava/lang/reflect/Field;
.end method

.class public final Ljava/lang/reflect/Field;
.super Ljava/lang/Object;
.method public native setAccessible(Z)V
.end method
.method public native get(Ljava/lang/Object;)Ljava/lang/Object;
.end method
.method public native set(Ljava/lang/Object;Ljava/lang/Object;)V
.end method

.class public final Ljava/lang/reflect/Method;
.super Ljava/lang/Object;
.method public native setAccessible(Z)V
.end method
.method public varargs native invoke(Ljava/lang/Object;[Ljava/lang/Object;)Ljava/lang/Object;
.end method

.class public final Landroid/util/Log;
.super Ljava/lang/Object;
.method public static native d(Ljava/lang/String;Ljava/lang/String;)I
.end method
"

/-- Loads sources behind the standard library; a later definition of a class replaces an earlier one. -/
def loadProgram (sources : List String) : Except ReadError Program := do
  return (← ClassTable.readSources {} {} (standardLibrary :: sources)).freeze

end Smali.Machine
